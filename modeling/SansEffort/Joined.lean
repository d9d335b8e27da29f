import SansEffort.Reaching

/-!
# Joined waits

A tree of nested `join`s whose leaves are asks. The poll that comes to it records all its requests,
in the order `join` makes futures of its sides; each reply is collected by the poll that it ends in,
and kept in its place until the last is there.
-/

namespace SansEffort

variable {E H M S L W : Type} {own : Waker}

open Coupling

/-! ### Trees -/

/-- Nested `join`s. -/
inductive Tree (α : Type)
  | leaf (a : α)
  | join (left right : Tree α)

namespace Tree

variable {α β γ : Type}

def leaves : Tree α → List α
  | .leaf a => [a]
  | .join a b => a.leaves ++ b.leaves

def map (f : α → β) : Tree α → Tree β
  | .leaf a => .leaf (f a)
  | .join a b => .join (a.map f) (b.map f)

theorem leaves_map (f : α → β) (t : Tree α) : (t.map f).leaves = t.leaves.map f := by
  induction t with
  | leaf a => rfl
  | join a b ihA ihB =>
    show (a.map f).leaves ++ (b.map f).leaves = _
    rw [ihA, ihB, ← List.map_append]
    rfl

theorem leaves_ne_nil (t : Tree α) : t.leaves ≠ [] := by
  induction t with
  | leaf a => exact List.cons_ne_nil _ _
  | join a b ihA _ => exact List.append_ne_nil_of_left_ne_nil ihA _

end Tree

/-- One ask of a tree. -/
structure Asked (E : Type) where
  answer : Answer
  make : ReplyHandle → E

namespace Tree

def task : Tree (Asked E) → Task E M S L own
  | .leaf ask => .ask none ask.answer fun reply => some (ask.make reply)
  | .join a b => .join a.task b.task

/-- The tree of values that a tree of asks resolves to. -/
def out : Tree Value → Out M
  | .leaf value => .reply value
  | .join a b => .both a.out b.out

/-- A tree of requests, with the replies that have been collected. -/
def polled (got : Nat → Option Value) : Tree Nat → Polled E M S L own
  | .leaf id =>
    match got id with
    | some value => .ready (.reply value)
    | none => .pending (.asked none id)
  | .join a b => (a.polled got).join (b.polled got)

variable {got got' : Nat → Option Value}

theorem polled_congr {t : Tree Nat} (same : ∀ id ∈ t.leaves, got id = got' id) :
    (t.polled got : Polled E M S L own) = t.polled got' := by
  induction t with
  | leaf id =>
    unfold polled
    rw [same id List.mem_cons_self]
  | join a b ihA ihB =>
    unfold polled
    rw [ihA fun id member => same id (List.mem_append_left _ member),
      ihB fun id member => same id (List.mem_append_right _ member)]

/-- A tree of requests is done once every reply has been collected. -/
theorem polled_all {t : Tree Nat} {values : Nat → Value}
    (all : ∀ id ∈ t.leaves, got id = some (values id)) :
    (t.polled got : Polled E M S L own) = .ready (t.map values).out := by
  induction t with
  | leaf id =>
    unfold polled
    rw [all id List.mem_cons_self]
    rfl
  | join a b ihA ihB =>
    unfold polled
    rw [ihA fun id member => all id (List.mem_append_left _ member),
      ihB fun id member => all id (List.mem_append_right _ member)]
    rfl

/-- A tree is done only once every reply has been collected. -/
theorem got_of_ready {t : Tree Nat} {result : Out M}
    (ready : (t.polled got : Polled E M S L own) = .ready result) :
    ∀ id ∈ t.leaves, got id ≠ none := by
  induction t generalizing result with
  | leaf id =>
    intro other member missing
    obtain rfl := List.mem_singleton.mp member
    unfold polled at ready
    rw [missing] at ready
    cases ready
  | join a b ihA ihB =>
    unfold polled at ready
    cases left : (a.polled got : Polled E M S L own) with
    | pending f =>
      rw [left] at ready
      cases right : (b.polled got : Polled E M S L own) <;> rw [right] at ready <;> cases ready
    | ready x =>
      cases right : (b.polled got : Polled E M S L own) with
      | pending f =>
        rw [left, right] at ready
        cases ready
      | ready y =>
        intro id member
        rcases List.mem_append.mp member with mine | mine
        · exact ihA left id mine
        · exact ihB right id mine

end Tree

/-! ### Collecting -/

/-- From `o` to `o'` the requests in `ids` were collected, and nothing else was done. -/
structure Outbox.Gathered (ids : List Nat) (o o' : Outbox E) : Prop where
  kept : o'.Kept
  effects : o'.effects = o.effects
  building : o'.building = o.building
  held : o'.held = o.held
  driverWaker : o'.driverWaker = o.driverWaker
  closed : o'.mail.closed = o.mail.closed
  next : o'.mail.next = o.mail.next
  driver : o'.mail.driver = o.mail.driver
  taken : ∀ id ∈ ids, o'.mail.lookup id = none
  others : ∀ id, id ∉ ids → o'.mail.lookup id = o.mail.lookup id

namespace Outbox.Gathered

variable {o o' o'' : Outbox E} {ids ids' : List Nat}

theorem trans (first : Gathered ids o o') (second : Gathered ids' o' o'') :
    Gathered (ids ++ ids') o o'' := by
  refine ⟨second.kept, second.effects.trans first.effects, second.building.trans first.building,
    second.held.trans first.held, second.driverWaker.trans first.driverWaker,
    second.closed.trans first.closed, second.next.trans first.next, second.driver.trans first.driver,
    fun id member => ?_, fun id away => ?_⟩
  · by_cases mine : id ∈ ids'
    · exact second.taken id mine
    · rw [second.others id mine]
      exact first.taken id ((List.mem_append.mp member).resolve_right mine)
  · rw [List.mem_append, not_or] at away
    rw [second.others id away.2, first.others id away.1]

end Outbox.Gathered

/-- A reply that is there is collected, and its request closed. -/
theorem Outbox.Kept.gather {o : Outbox E} (kept : o.Kept) (waker : Waker) {id : Nat} {slot : Slot}
    {value : Value} (found : o.mail.lookup id = some slot) (arrived : slot.value = some value) :
    (o.collect id waker).1 = some value ∧ Gathered [id] o ((o.collect id waker).2.close id) := by
  obtain ⟨other, v, found', arrived', handed, updated⟩ | ⟨missing, _⟩ := kept.mail.shape.collect id
    (if o.driverWaker.any (· == waker) then none else some waker)
  · obtain rfl := Option.some.inj (found.symm.trans found')
    obtain rfl := Option.some.inj (arrived.symm.trans arrived')
    have kept' := (kept.collect id waker).1
    have gone : (o.collect id waker).2.mail.lookup id = none :=
      (updated.lookup id).trans (if_pos rfl)
    have closed := kept'.mail.shape.close id
    rw [gone] at closed
    refine ⟨handed, kept'.close id, rfl, rfl, rfl, rfl, ?_, ?_, ?_, fun other member => ?_,
      fun other away => ?_⟩
    · exact (closed.closed.trans (List.append_nil _)).trans
        (updated.closed.trans (List.append_nil _))
    · exact closed.next.trans updated.next
    · exact closed.driver.trans updated.driver
    · obtain rfl := List.mem_singleton.mp member
      exact (closed.lookup other).trans (if_pos rfl)
    · have away : other ≠ id := by simpa using away
      have left := closed.lookup other
      rw [if_neg away] at left
      exact left.trans ((updated.lookup other).trans (if_neg away))
  · rw [found] at missing
    cases arrived.symm.trans missing

/-- A request whose reply is not there is polled in vain. -/
theorem Outbox.Kept.gather_vain {o : Outbox E} (kept : o.Kept) (adopted : o.driverWaker = some own)
    {id : Nat} {slot : Slot} (found : o.mail.lookup id = some slot) (missing : slot.value = none) :
    (o.collect id own).1 = none ∧ Gathered [] o (o.collect id own).2 := by
  obtain ⟨_, _, _, value, _⟩ := kept.mail.lookup_some found
  have kept' := (kept.collect id own).1
  rw [kept.collect_again adopted (value.symm.trans missing)] at kept' ⊢
  exact ⟨rfl, kept', rfl, rfl, rfl, rfl, rfl, rfl, rfl,
    fun _ member => absurd member List.not_mem_nil, fun _ _ => rfl⟩

namespace Tree

variable {got : Nat → Option Value}

/-- The requests whose reply is there, and is not collected yet. -/
def found (got stored : Nat → Option Value) (t : Tree Nat) : List Nat :=
  t.leaves.filter fun id => (got id).isNone && (stored id).isSome

theorem found_join (got stored : Nat → Option Value) (a b : Tree Nat) :
    (join a b).found got stored = a.found got stored ++ b.found got stored := List.filter_append ..

/-- A side that is done is not polled again. -/
theorem done_of_ready {t : Tree Nat} {result : Out M} (stored : Nat → Option Value)
    (ready : (t.polled got : Polled E M S L own) = .ready result) :
    t.found got stored = [] ∧
      (t.polled fun id => (got id).or (stored id) : Polled E M S L own) = .ready result := by
  have collected := got_of_ready ready
  refine ⟨?_, ?_⟩
  · unfold found
    rw [List.filter_eq_nil_iff]
    intro id member
    obtain ⟨value, there⟩ := Option.ne_none_iff_exists'.mp (collected id member)
    simp [there]
  · rw [← ready]
    refine polled_congr fun id member => ?_
    obtain ⟨value, there⟩ := Option.ne_none_iff_exists'.mp (collected id member)
    rw [there]
    rfl

/-- A poll of the tree collects every reply that is there. -/
theorem poll_gathers (src : Source E M S L W own) {t : Tree Nat} {future : Fut E M S L own}
    (suspended : t.polled got = .pending future) (distinct : t.leaves.Nodup)
    {stored : Nat → Option Value} {shared : Shared E H} (world : W) (kept : shared.outbox.Kept)
    (adopted : shared.outbox.driverWaker = some own)
    (opened : ∀ id ∈ t.leaves, got id = none →
      ∃ slot, shared.outbox.mail.lookup id = some slot ∧ slot.value = stored id) :
    ∃ o, (future.poll src own).run (shared, world) =
        some (t.polled fun id => (got id).or (stored id), { shared with outbox := o }, world) ∧
      Outbox.Gathered (t.found got stored) shared.outbox o := by
  induction t generalizing future shared with
  | leaf id =>
    unfold polled at suspended ⊢
    cases collected : got id with
    | some value =>
      rw [collected] at suspended
      cases suspended
    | none =>
      rw [collected] at suspended
      cases suspended
      obtain ⟨slot, looked, value⟩ := opened id List.mem_cons_self collected
      have run : (pollAsked own none id : Polling E H W (Polled E M S L own)).run (shared, world) = _ :=
        run_pollAsked own id shared world
      cases arrived : stored id with
      | none =>
        obtain ⟨vain, gathered⟩ := kept.gather_vain adopted looked (value.trans arrived)
        rw [vain] at run
        refine ⟨_, run, ?_⟩
        have nothing : (leaf id).found got stored = [] := by simp [found, leaves, arrived]
        rw [nothing]
        exact gathered
      | some v =>
        obtain ⟨handed, gathered⟩ := kept.gather own looked (value.trans arrived)
        rw [handed] at run
        refine ⟨_, run, ?_⟩
        have all : (leaf id).found got stored = [id] := by simp [found, leaves, arrived, collected]
        rw [all]
        exact gathered
  | join a b ihA ihB =>
    obtain ⟨distinctA, distinctB, apart⟩ := List.nodup_append.mp distinct
    have openedA : ∀ id ∈ a.leaves, got id = none →
        ∃ slot, shared.outbox.mail.lookup id = some slot ∧ slot.value = stored id :=
      fun id member => opened id (List.mem_append_left _ member)
    have openedB : ∀ id ∈ b.leaves, got id = none →
        ∃ slot, shared.outbox.mail.lookup id = some slot ∧ slot.value = stored id :=
      fun id member => opened id (List.mem_append_right _ member)
    rw [found_join]
    unfold polled at suspended ⊢
    cases left : (a.polled got : Polled E M S L own) with
    | ready x =>
      obtain ⟨nothing, still⟩ := done_of_ready stored left
      rw [nothing, still]
      cases right : (b.polled got : Polled E M S L own) with
      | ready y =>
        rw [left, right] at suspended
        cases suspended
      | pending g =>
        rw [left, right] at suspended
        cases suspended
        obtain ⟨o, ran, gathered⟩ := ihB right distinctB kept adopted openedB
        refine ⟨o, ?_, gathered⟩
        unfold Fut.poll
        rw [StateT.run_bind, ran]
        rfl
    | pending f =>
      obtain ⟨o, ran, gathered⟩ := ihA left distinctA kept adopted openedA
      cases right : (b.polled got : Polled E M S L own) with
      | ready y =>
        obtain ⟨nothing, still⟩ := done_of_ready stored right
        rw [nothing, still, List.append_nil]
        rw [left, right] at suspended
        cases suspended
        refine ⟨o, ?_, gathered⟩
        unfold Fut.poll
        rw [StateT.run_bind, ran]
        rfl
      | pending g =>
        rw [left, right] at suspended
        cases suspended
        -- the second side's requests are as they were
        have openedB' : ∀ id ∈ b.leaves, got id = none →
            ∃ slot, o.mail.lookup id = some slot ∧ slot.value = stored id := by
          intro id member missing
          rw [gathered.others id fun mine => apart id (List.mem_filter.mp mine).1 id member rfl]
          exact openedB id member missing
        have kept' : ({ shared with outbox := o } : Shared E H).outbox.Kept := gathered.kept
        obtain ⟨o', ran', gathered'⟩ := ihB right distinctB kept' (gathered.driverWaker.trans adopted)
          openedB'
        refine ⟨o', ?_, gathered.trans gathered'⟩
        unfold Fut.poll
        rw [StateT.run_bind, ran]
        simp only [Option.bind_eq_bind, Option.bind_some]
        rw [StateT.run_bind, ran']
        rfl

end Tree

/-! ### Recording -/

/-- What is open for a request of a tree whose reply has not come. -/
def Asked.slot (ask : Asked E) (id : Nat) : Slot := ⟨id, true, none, ask.answer.check, none⟩

/-- From `o` to `o'` the asks of `order` were recorded, with these ids, and nothing else was
done. -/
structure Outbox.Asks (own : Waker) (order : List (Asked E × Nat)) (o o' : Outbox E) : Prop where
  ready : o'.Ready own
  effects : o'.effects = o.effects ++ order.map fun (ask, id) => ask.make ⟨o.mail.driver, id⟩
  ids : order.map Prod.snd = List.range' o.mail.next order.length
  next : o'.mail.next = o.mail.next + order.length
  closed : o'.mail.closed = o.mail.closed
  driver : o'.mail.driver = o.mail.driver
  opened : ∀ ask id, (ask, id) ∈ order → o'.mail.lookup id = some (ask.slot id)
  others : ∀ id, id < o.mail.next → o'.mail.lookup id = o.mail.lookup id

namespace Outbox.Asks

variable {o o' o'' : Outbox E} {order order' : List (Asked E × Nat)}

theorem refl (ready : o.Ready own) : Asks own [] o o :=
  ⟨ready, (List.append_nil _).symm, rfl, rfl, rfl, rfl,
    fun _ _ member => absurd member List.not_mem_nil, fun _ _ => rfl⟩

/-- The ids of the asks are new. -/
theorem low (asks : Asks own order o o') {ask : Asked E} {id : Nat} (member : (ask, id) ∈ order) :
    o.mail.next ≤ id ∧ id < o'.mail.next := by
  have there : id ∈ order.map Prod.snd := List.mem_map.mpr ⟨_, member, rfl⟩
  rw [asks.ids, List.mem_range'_1, ← asks.next] at there
  exact there

theorem trans (first : Asks own order o o') (second : Asks own order' o' o'') :
    Asks own (order ++ order') o o'' := by
  constructor
  case ready => exact second.ready
  case effects =>
    rw [second.effects, first.effects, first.driver, List.map_append, List.append_assoc]
  case ids =>
    rw [List.map_append, first.ids, second.ids, first.next, List.length_append,
      List.range'_append_1]
  case next =>
    rw [second.next, first.next, List.length_append]
    omega
  case closed => exact second.closed.trans first.closed
  case driver => exact second.driver.trans first.driver
  case opened =>
    intro ask id member
    rcases List.mem_append.mp member with mine | mine
    · rw [second.others id (first.low mine).2]
      exact first.opened ask id mine
    · exact second.opened ask id mine
  case others =>
    intro id early
    have grew := first.next
    rw [second.others id (by omega), first.others id early]

/-- Requests polled in vain after the asks change nothing of what was asked. -/
theorem vain (asks : Asks own order o o') (gathered : Gathered [] o' o'') : Asks own order o o'' := by
  obtain ⟨_, adopted, building, held⟩ := asks.ready
  have same : ∀ id, o''.mail.lookup id = o'.mail.lookup id :=
    fun id => gathered.others id List.not_mem_nil
  refine ⟨⟨gathered.kept, gathered.driverWaker.trans adopted, gathered.building.trans building,
    gathered.held.trans held⟩, gathered.effects.trans asks.effects, asks.ids,
    gathered.next.trans asks.next, gathered.closed.trans asks.closed,
    gathered.driver.trans asks.driver, fun ask id member => ?_, fun id early => ?_⟩
  · rw [same]
    exact asks.opened ask id member
  · rw [same]
    exact asks.others id early

end Outbox.Asks

/-- With no effect half built, one that is recorded follows those before at once. -/
theorem Outbox.Ready.recorded {o : Outbox E} (ready : o.Ready own) (effect : E) (answer : Answer) :
    ∃ log, o.mint.2.openRequest o.mail.next effect answer = { o with
      effects := o.effects ++ [effect]
      mail := o.mail.mint.2.openSlot o.mail.next answer.check
      log } := by
  obtain ⟨effects, building, held, mail, waker, log⟩ := o
  obtain rfl : building = none := ready.building
  obtain rfl : held = [] := ready.held
  refine ⟨.opened mail.next effect answer :: .minted mail.next :: log, ?_⟩
  unfold Outbox.openRequest Outbox.mint Outbox.record
  simp [Outbox.noting, Mail.mint]

/-- An ask is recorded: its effect follows those before, and its request is open. -/
theorem record_asks {shared : Shared E H} (ready : shared.outbox.Ready own) (ask : Asked E)
    (world : W) : ∃ o, (record ask.answer fun reply => some (ask.make reply)).run (shared, world) =
        some (shared.outbox.mail.next, { shared with outbox := o }, world) ∧
      Outbox.Asks own [(ask, shared.outbox.mail.next)] shared.outbox o := by
  obtain ⟨kept, adopted, building, held⟩ := ready
  obtain ⟨minted, reply, log⟩ := kept.mint
  have ran := run_record ask.answer (fun reply => some (ask.make reply)) shared world
  rw [reply] at ran
  refine ⟨_, ran, ?_⟩
  have built : shared.outbox.mail.next ∈ beingBuilt shared.outbox.mint.2.log :=
    log ▸ List.mem_cons_self
  have absent : ∀ slot ∈ shared.outbox.mail.slots, slot.id ≠ shared.outbox.mail.next := by
    intro slot member same
    have opened := kept.mail.opened slot member
    have := kept.mail.numbered _ (kept.valid.opened_minted _ opened).1
    omega
  have shape : shared.outbox.mail.mint.2.Shape :=
    ⟨kept.mail.shape.sorted, kept.mail.shape.counted, kept.mail.shape.last_open,
      kept.mail.shape.few_closed⟩
  have updated := shape.openSlot ask.answer.check absent
  have kept' := minted.openRequest built (ask.make ⟨shared.outbox.mail.driver, shared.outbox.mail.next⟩)
    ask.answer
  obtain ⟨log', same⟩ := Outbox.Ready.recorded ⟨kept, adopted, building, held⟩
    (ask.make ⟨shared.outbox.mail.driver, shared.outbox.mail.next⟩) ask.answer
  rw [same] at kept' ⊢
  refine ⟨⟨kept', adopted, building, held⟩, rfl, rfl, updated.next, ?_, updated.driver,
    fun ask' id member => ?_, fun id early => ?_⟩
  · exact updated.closed.trans (List.append_nil _)
  · obtain ⟨rfl, rfl⟩ := Prod.mk.inj (List.mem_singleton.mp member)
    exact (updated.lookup _).trans (if_pos rfl)
  · exact (updated.lookup id).trans (if_neg (by omega))

/-- The first poll of a tree, wherever a routine comes to it. -/
def Tree.Begins (own : Waker) (tree : Tree (Asked E))
    (act : Polling E H W (Polled E M S L own)) : Prop :=
  ∀ {shared : Shared E H} (world : W), shared.outbox.Ready own →
    ∃ (numbered : Tree (Asked E × Nat)) (order : List (Asked E × Nat)) (o : Outbox E),
      act.run (shared, world) =
        some ((numbered.map Prod.snd).polled fun _ => none, { shared with outbox := o }, world) ∧
      numbered.map Prod.fst = tree ∧ order.Perm numbered.leaves ∧
      Outbox.Asks own order shared.outbox o

/-- A side of a `join`: a direct ask is recorded early, and anything else in its first poll. -/
theorem Tree.Begins.side {tree : Tree (Asked E)} {call : L → Polling E H W (Polled E M S L own)}
    {places : Places W M}
    (begins : tree.Begins own ((tree.task : Task E M S L own).beginWith call places own))
    {shared : Shared E H} (world : W) (ready : shared.outbox.Ready own) :
    ∃ (early : Option (Awaited S own × Nat)) (order : List (Asked E × Nat)) (o : Outbox E),
      ((tree.task : Task E M S L own).intoFuture :
          Polling E H W (Option (Awaited S own × Nat))).run (shared, world) =
        some (early, { shared with outbox := o }, world) ∧
      Outbox.Asks own order shared.outbox o ∧
      ∀ {shared' : Shared E H}, shared'.outbox.Ready own →
        (∀ ask id, (ask, id) ∈ order → shared'.outbox.mail.lookup id = some (ask.slot id)) →
        ∃ (numbered : Tree (Asked E × Nat)) (order' : List (Asked E × Nat)) (o' : Outbox E),
          (firstPoll own ((tree.task : Task E M S L own).beginWith call places own) early).run
              (shared', world) =
            some ((numbered.map Prod.snd).polled fun _ => none, { shared' with outbox := o' }, world) ∧
          numbered.map Prod.fst = tree ∧ (order ++ order').Perm numbered.leaves ∧
          Outbox.Asks own order' shared'.outbox o' := by
  cases tree with
  -- recorded early, and the first poll looks at the slot in vain
  | leaf ask =>
    obtain ⟨o, ran, asks⟩ := record_asks ready ask world
    refine ⟨some (none, shared.outbox.mail.next), [(ask, shared.outbox.mail.next)], o, ?_, asks,
      fun {shared'} ready' opened => ?_⟩
    · unfold task Task.intoFuture
      rw [StateT.run_bind, ran]
      rfl
    · have looked := opened ask _ (List.mem_singleton_self _)
      obtain ⟨vain, gathered⟩ := ready'.kept.gather_vain ready'.adopted looked rfl
      have run : (pollAsked own none shared.outbox.mail.next :
          Polling E H W (Polled E M S L own)).run (shared', world) = _ :=
        run_pollAsked own shared.outbox.mail.next shared' world
      rw [vain] at run
      exact ⟨.leaf (ask, shared.outbox.mail.next), [], _, run, rfl, .refl _,
        (Outbox.Asks.refl ready').vain gathered⟩
  | join a b =>
    refine ⟨none, [], shared.outbox, rfl, .refl ready, fun {shared'} ready' _ => ?_⟩
    exact begins world ready'

theorem Tree.begins (tree : Tree (Asked E)) (call : L → Polling E H W (Polled E M S L own))
    (places : Places W M) :
    tree.Begins own ((tree.task : Task E M S L own).beginWith call places own) := by
  induction tree with
  | leaf ask =>
    intro shared world ready
    obtain ⟨o, ran, asks⟩ := record_asks ready ask world
    have looked := asks.opened ask _ (List.mem_singleton_self _)
    obtain ⟨vain, gathered⟩ := asks.ready.kept.gather_vain asks.ready.adopted looked rfl
    have run : (pollAsked own none shared.outbox.mail.next :
        Polling E H W (Polled E M S L own)).run ({ shared with outbox := o }, world) = _ :=
      run_pollAsked own shared.outbox.mail.next { shared with outbox := o } world
    rw [vain] at run
    refine ⟨.leaf (ask, shared.outbox.mail.next), _, _, ?_, rfl, .refl _, asks.vain gathered⟩
    unfold task Task.beginWith
    rw [StateT.run_bind, ran]
    exact run
  | join a b ihA ihB =>
    intro shared world ready
    -- both sides are made futures, and then polled
    obtain ⟨early, earlyA, o₁, madeA, asks₁, pollA⟩ := ihA.side world ready
    have ready₁ : ({ shared with outbox := o₁ } : Shared E H).outbox.Ready own := asks₁.ready
    obtain ⟨late, earlyB, o₂, madeB, asks₂, pollB⟩ := ihB.side world ready₁
    have ready₂ : ({ shared with outbox := o₂ } : Shared E H).outbox.Ready own := asks₂.ready
    have openA : ∀ ask id, (ask, id) ∈ earlyA → o₂.mail.lookup id = some (ask.slot id) := by
      intro ask id member
      rw [← asks₁.opened ask id member]
      exact asks₂.others id (asks₁.low member).2
    obtain ⟨numberedA, laterA, o₃, ranA, sameA, permA, asks₃⟩ := pollA ready₂ openA
    have ready₃ : ({ shared with outbox := o₃ } : Shared E H).outbox.Ready own := asks₃.ready
    have openB : ∀ ask id, (ask, id) ∈ earlyB → o₃.mail.lookup id = some (ask.slot id) := by
      intro ask id member
      rw [← asks₂.opened ask id member]
      exact asks₃.others id (asks₂.low member).2
    obtain ⟨numberedB, laterB, o₄, ranB, sameB, permB, asks₄⟩ := pollB ready₃ openB
    refine ⟨.join numberedA numberedB, earlyA ++ earlyB ++ laterA ++ laterB, o₄, ?_, ?_, ?_,
      ((asks₁.trans asks₂).trans asks₃).trans asks₄⟩
    · unfold task Task.beginWith
      rw [StateT.run_bind, madeA]
      simp only [Option.bind_eq_bind, Option.bind_some]
      rw [StateT.run_bind, madeB]
      simp only [Option.bind_eq_bind, Option.bind_some]
      rw [StateT.run_bind, ranA]
      simp only [Option.bind_eq_bind, Option.bind_some]
      rw [StateT.run_bind, ranB]
      rfl
    · show Tree.join _ _ = _
      rw [sameA, sameB]
    · have moved : (earlyA ++ (earlyB ++ laterA) ++ laterB).Perm
          (earlyA ++ (laterA ++ earlyB) ++ laterB) :=
        (List.perm_append_comm.append_left earlyA).append_right laterB
      simp only [List.append_assoc] at moved permA permB ⊢
      refine moved.trans ?_
      rw [← List.append_assoc]
      exact permA.append permB

/-! ### Replies -/

/-- A driver of a routine that begins with `task`, the first request of which is `next`. -/
def Source.startAt (driver next : Nat) (task : Task E M S L own) (world : W) :
    Stepper (Stage E M S L own × W) E H :=
  ⟨some (.fresh task, world), ⟨⟨[], none, [], ⟨driver, [], 0, [], next⟩, some own, []⟩, Wakeup.new, []⟩,
    .awaiting, own⟩

example (driver : Nat) (task : Task E M S L own) (world : W) :
    (Source.startAt driver 1 task world : Stepper (Stage E M S L own × W) E H) =
      Source.start driver task world := rfl

/-- An outbox but for its requests and its log. -/
def Outbox.emptied (o : Outbox E) : Outbox E :=
  ⟨o.effects, o.building, o.held, ⟨o.mail.driver, [], 0, o.mail.closed, o.mail.next⟩, o.driverWaker, []⟩

theorem Outbox.Gathered.emptied {ids : List Nat} {o o' : Outbox E} (gathered : Gathered ids o o') :
    o'.emptied = o.emptied := by
  unfold Outbox.emptied
  rw [gathered.effects, gathered.building, gathered.held, gathered.driverWaker, gathered.closed,
    gathered.next, gathered.driver]

/-- With no request open, an outbox acts as one emptied of its requests and its log. -/
theorem Outbox.Kept.bare_of_none_open {o : Outbox E} (kept : o.Kept)
    (unopened : ∀ id, o.mail.lookup id = none) : o.bare = o.emptied := by
  have shape := kept.mail.shape
  have none_open : o.mail.slots.filter (·.isOpen) = [] := by
    refine List.filter_eq_nil_iff.mpr fun slot member isOpen => ?_
    have found := (shape.lookup_eq_some_iff slot.id slot).mpr ⟨member, isOpen, rfl⟩
    cases found.symm.trans (unopened slot.id)
  have opened : o.mail.opened = 0 := by
    rw [shape.counted, none_open]
    rfl
  have few := shape.few_closed
  have slots : o.mail.slots = [] := List.length_eq_zero_iff.mp (by omega)
  unfold Outbox.bare Outbox.emptied
  rw [← slots, ← opened]

theorem Outbox.Kept.opened_pos {o : Outbox E} (kept : o.Kept) {id : Nat} {slot : Slot}
    (found : o.mail.lookup id = some slot) : 0 < o.mail.opened := by
  have shape := kept.mail.shape
  obtain ⟨member, isOpen, _⟩ := (shape.lookup_eq_some_iff id slot).mp found
  rw [shape.counted]
  exact List.length_pos_of_mem (List.mem_filter.mpr ⟨member, isOpen⟩)

/-- The replies that have come, of those `values` has. -/
def arrived (values : Nat → Value) (remaining : List Nat) (id : Nat) : Option Value :=
  if id ∈ remaining then none else some (values id)

/-- The one reply that is there to collect. -/
def only (id : Nat) (value : Value) (other : Nat) : Option Value := if other = id then some value else none

theorem arrived_or {values : Nat → Value} {id : Nat} {remaining : List Nat} (away : id ∉ remaining)
    (other : Nat) : (arrived values (id :: remaining) other).or (only id (values id) other) =
      arrived values remaining other := by
  unfold arrived only
  by_cases same : other = id
  · subst same
    simp [away]
  · simp [same]

theorem Tree.found_only {values : Nat → Value} {t : Tree Nat} {id : Nat} {remaining : List Nat}
    (member : id ∈ t.leaves) (other : Nat) :
    other ∈ t.found (arrived values (id :: remaining)) (only id (values id)) ↔ other = id := by
  simp only [found, List.mem_filter, arrived, only]
  constructor
  · rintro ⟨_, there⟩
    by_contra apart
    simp [apart] at there
  · rintro rfl
    simp [member]

/-- The request waits for its reply, which `value` may be. -/
def Outbox.Takes (o : Outbox E) (id : Nat) (value : Value) : Prop :=
  ∃ check, o.mail.lookup id = some ⟨id, true, none, check, none⟩ ∧ check value = some (.ok ())

/-- A driver whose routine awaits a tree of requests within `frames`, and waits for the replies to
`remaining`. -/
structure Waits (tree : Tree Nat) (values : Nat → Value)
    (frames : List (Out M → Task E M S L own)) (world : W) (driver next : Nat) (remaining : List Nat)
    (d : Stepper (Stage E M S L own × W) E H) : Prop where
  future : ∃ f, tree.polled (arrived values remaining) = .pending f ∧
    d.future = some (.running (f.within frames), world)
  kept : d.outbox.Kept
  rest : d.outbox.emptied = ⟨[], none, [], ⟨driver, [], 0, [], next⟩, some own, []⟩
  polled : d.waker = own
  status : d.status = .awaiting
  opened : ∀ id ∈ remaining, d.outbox.Takes id (values id)
  others : ∀ id, id ∉ remaining → d.outbox.mail.lookup id = none

namespace Waits

variable {tree : Tree Nat} {values : Nat → Value}
  {frames : List (Out M → Task E M S L own)} {world : W} {driver next : Nat}
  {d : Stepper (Stage E M S L own × W) E H}

/-- The poll that a reply ends in collects it, and nothing else of the tree moves. -/
theorem collects (src : Source E M S L W own) {id : Nat} {remaining : List Nat}
    (waits : Waits tree values frames world driver next (id :: remaining) d)
    (distinct : tree.leaves.Nodup) (once : (id :: remaining).Nodup)
    (among : id :: remaining ⊆ tree.leaves) :
    ∃ (e : Stepper (Stage E M S L own × W) E H) (f : Fut E M S L own) (o : Outbox E),
      d.doing src.routine (.reply ⟨driver, id⟩ (values id)) =
        (e.poll src.routine).map (fun (yielded, d) => (some (.ok yielded), d)) ∧
      e.future = some (.running (f.within frames), world) ∧ e.waker = own ∧ e.status = .awaiting ∧
      (f.poll src own).run ({ e.shared with wakeup := e.shared.wakeup.clear }, world) =
        some (tree.polled (arrived values remaining),
          { e.shared with outbox := o, wakeup := e.shared.wakeup.clear }, world) ∧
      o.Kept ∧ o.emptied = ⟨[], none, [], ⟨driver, [], 0, [], next⟩, some own, []⟩ ∧
      (∀ other ∈ remaining, o.Takes other (values other)) ∧
      ∀ other, other ∉ remaining → o.mail.lookup other = none := by
  obtain ⟨⟨f, suspended, future⟩, kept, rest, polled, status, opened, others⟩ := waits
  obtain ⟨away, _⟩ := List.nodup_cons.mp once
  have mine : id ∈ id :: remaining := List.mem_cons_self
  have ours : driver = d.outbox.mail.driver := congrArg (·.mail.driver) rest.symm
  have mailed := kept.mail.shape.deliver ⟨driver, id⟩ (values id) ours
  obtain ⟨check, looked, passes⟩ := opened id mine
  rw [looked] at mailed
  dsimp only at mailed
  rw [passes] at mailed
  obtain ⟨mail, delivered, updated⟩ := mailed
  let o₁ : Outbox E := { d.outbox with mail }.noting (.delivered id (values id))
  have handed : d.outbox.deliver ⟨driver, id⟩ (values id) = some (.delivered none, o₁) := by
    unfold Outbox.deliver
    rw [delivered]
    rfl
  have begins : d.Begins src.routine (.reply ⟨driver, id⟩ (values id))
      { d with shared := { d.shared with outbox := o₁ } } := .reply handed rfl
  let cleared : Shared E H := { d.shared with outbox := o₁, wakeup := d.shared.wakeup.clear }
  have kept₁ : cleared.outbox.Kept := kept.delivered handed
  have adopted : cleared.outbox.driverWaker = some own := congrArg Outbox.driverWaker rest
  have rest₁ : o₁.emptied = d.outbox.emptied := by
    unfold Outbox.emptied
    rw [show o₁.mail = mail from rfl, updated.driver, updated.next, updated.closed.trans (List.append_nil _)]
    rfl
  -- of what the tree still waits for, this one alone is there
  have opened₁ : ∀ other ∈ tree.leaves, arrived values (id :: remaining) other = none →
      ∃ slot, cleared.outbox.mail.lookup other = some slot ∧
        slot.value = only id (values id) other := by
    intro other _ missing
    have waited : other ∈ id :: remaining := by
      by_contra absent
      rw [arrived, if_neg absent] at missing
      cases missing
    by_cases same : other = id
    · exact ⟨_, (updated.lookup other).trans (if_pos same), (if_pos same).symm⟩
    · obtain ⟨_, looked', _⟩ := opened other waited
      exact ⟨_, ((updated.lookup other).trans (if_neg same)).trans looked', (if_neg same).symm⟩
  obtain ⟨o, ran, gathered⟩ :=
    Tree.poll_gathers src suspended distinct world kept₁ adopted opened₁
  have come : (tree.polled fun other =>
      (arrived values (id :: remaining) other).or (only id (values id) other) : Polled E M S L own) =
        tree.polled (arrived values remaining) :=
    Tree.polled_congr fun other _ => arrived_or away other
  have found : ∀ other, other ∈ tree.found (arrived values (id :: remaining)) (only id (values id)) ↔
      other = id := Tree.found_only (among mine)
  refine ⟨_, f, o, begins.does, future, polled, status, ?_, gathered.kept, ?_, ?_, ?_⟩
  · rw [← come]
    exact ran
  · rw [gathered.emptied]
    exact rest₁.trans rest
  · intro other later
    have apart : other ≠ id := fun same => away (same ▸ later)
    obtain ⟨check', looked', passes'⟩ := opened other (List.mem_cons_of_mem _ later)
    refine ⟨check', ?_, passes'⟩
    rw [gathered.others other fun there => apart ((found other).mp there)]
    exact ((updated.lookup other).trans (if_neg apart)).trans looked'
  · intro other absent
    by_cases same : other = id
    · exact gathered.taken other ((found other).mpr same)
    · rw [gathered.others other fun there => same ((found other).mp there)]
      refine ((updated.lookup other).trans (if_neg same)).trans (others other ?_)
      exact fun there => (List.mem_cons.mp there).elim same absent

/-- A reply that is not the last yields nothing. -/
theorem goes_on (src : Source E M S L W own) {id other : Nat} {remaining : List Nat}
    (waits : Waits tree values frames world driver next (id :: other :: remaining) d)
    (distinct : tree.leaves.Nodup) (once : (id :: other :: remaining).Nodup)
    (among : id :: other :: remaining ⊆ tree.leaves) :
    ∃ d', d.doing src.routine (.reply ⟨driver, id⟩ (values id)) = some (some (.ok ⟨[], []⟩), d') ∧
      d'.status = .awaiting ∧ Waits tree values frames world driver next (other :: remaining) d' := by
  obtain ⟨e, f, o, did, future, polled, status, ran, kept, rest, opened, others⟩ :=
    waits.collects src distinct once among
  -- one reply is outstanding at least
  have waited : other ∈ other :: remaining := List.mem_cons_self
  cases come : (tree.polled (arrived values (other :: remaining)) : Polled E M S L own) with
  | ready result =>
    have collected := Tree.got_of_ready come other (among (List.mem_cons_of_mem _ waited))
    exact absurd (if_pos waited) collected
  | pending g =>
    rw [come] at ran
    -- so the whole future waits, and the stage with it
    have staged : ((Stage.running (f.within frames)).poll src own).run
        ({ e.shared with wakeup := e.shared.wakeup.clear }, world) =
          some ((.pending, .running (g.within frames)),
            { e.shared with outbox := o, wakeup := e.shared.wakeup.clear }, world) := by
      unfold Stage.poll
      dsimp only
      rw [StateT.run_bind, poll_within_pending src frames ran]
      rfl
    have effects : o.effects = [] := congrArg Outbox.effects rest
    have closed : o.mail.closed = [] := congrArg (·.mail.closed) rest
    have awaiting : Status.classify .pending o.mail.opened = .awaiting := by
      unfold Status.classify
      obtain ⟨_, looked, _⟩ := opened other waited
      exact if_pos (kept.opened_pos looked)
    let after := e.finishPoll .pending (some (Stage.running (g.within frames), world))
      { e.shared with outbox := o, wakeup := e.shared.wakeup.clear }
    have yielded : after.1 = ⟨[], []⟩ := by
      show Yield.mk o.effects o.mail.closed = _
      rw [effects, closed]
    refine ⟨after.2, ?_, awaiting, ⟨g, come, rfl⟩, kept.drain.1, ?_, polled, awaiting, opened, others⟩
    · rw [did, Stepper.poll_pending polled future staged, ← yielded]
      rfl
    · rw [← rest]
      unfold Outbox.emptied
      rw [effects, closed]
      rfl

/-- The last reply goes on as a driver would that began what is left of the routine, with the values
in their places. -/
theorem ends (src : Source E M S L W own) {id : Nat}
    (waits : Waits tree values frames world driver next [id] d)
    (distinct : tree.leaves.Nodup) (among : [id] ⊆ tree.leaves) :
    Option.Rel (fun p₁ p₂ => p₁.1 = p₂.1 ∧ Matches p₁.2 p₂.2)
      (d.doing src.routine (.reply ⟨driver, id⟩ (values id)))
      ((Source.startAt driver next ((Task.ret (tree.map values).out).within frames) world :
        Stepper (Stage E M S L own × W) E H).doing src.routine .resume) := by
  obtain ⟨e, f, o, did, future, polled, status, ran, kept, rest, _, unopened⟩ :=
    waits.collects src distinct (List.nodup_singleton id) among
  -- every value has arrived
  have come : (tree.polled (arrived values []) : Polled E M S L own) = .ready (tree.map values).out :=
    Tree.polled_all fun _ _ => rfl
  rw [come] at ran
  let task : Task E M S L own := (Task.ret (tree.map values).out).within frames
  let resumed : Stepper (Stage E M S L own × W) E H :=
    ⟨some (.fresh task, world), { e.shared with outbox := o }, e.status, e.waker⟩
  -- the poll runs what was waiting for them as if it were new
  have staged : ((Stage.running (f.within frames)).poll src own).run
      ({ e.shared with wakeup := e.shared.wakeup.clear }, world) =
        ((Stage.fresh task).poll src own).run
          ({ e.shared with outbox := o, wakeup := e.shared.wakeup.clear }, world) := by
    unfold Stage.poll
    dsimp only
    rw [StateT.run_bind, poll_within_ready src frames ran]
    rfl
  have polls : ∀ stage shared, src.routine.poll (stage, world) e.waker shared =
      ((stage.poll src own).run (shared, world)).map
        fun (p : (Poll × Stage E M S L own) × Shared E H × W) => ((p.1.1, p.1.2, p.2.2), p.2.1) := by
    intro stage shared
    rw [polled]
    rfl
  have same : e.poll src.routine = resumed.poll src.routine := by
    unfold Stepper.poll
    rw [future]
    dsimp only [resumed]
    rw [polls, polls, staged]
    rfl
  have matched : Matches resumed (Source.startAt driver next task world) := by
    refine ⟨rfl, ?_, status, polled⟩
    exact (kept.bare_of_none_open fun other => unopened other List.not_mem_nil).trans rest
  rw [did, same]
  refine rel_map (matched.poll src) ?_
  rintro ⟨_, _⟩ ⟨_, _⟩ ⟨rfl, left⟩
  exact ⟨rfl, left⟩

/-- The replies in any order, and then whatever else: all but the last yield nothing, and from there
on it goes as it would with the values in their places. -/
theorem run (src : Source E M S L W own) {replies : List Nat}
    (waits : Waits tree values frames world driver next replies d) (distinct : tree.leaves.Nodup)
    (once : replies.Nodup) (among : replies ⊆ tree.leaves) (some_left : replies ≠ [])
    (later : List (Doing H W)) :
    (d.watch src.routine (replies.map (fun id => .reply ⟨driver, id⟩ (values id)) ++ later)).map
        (Option.map Seen.answer) =
      List.replicate (replies.length - 1) (some (some (.ok ⟨[], []⟩), .awaiting)) ++
        ((Source.startAt driver next ((Task.ret (tree.map values).out).within frames) world :
          Stepper (Stage E M S L own × W) E H).watch src.routine (.resume :: later)).map
            (Option.map Seen.answer) := by
  induction replies generalizing d with
  | nil => exact absurd rfl some_left
  | cons id remaining ih =>
    cases remaining with
    | nil => exact Matches.watch_cons (waits.ends src distinct among) fun _ _ same => same.watch later
    | cons other remaining =>
      obtain ⟨d', did, status, waits'⟩ := waits.goes_on src distinct once among
      have rest := ih waits' (List.nodup_cons.mp once).2
        (fun _ member => among (List.mem_cons_of_mem _ member)) (List.cons_ne_nil _ _)
      rw [List.map_cons, List.cons_append, Stepper.watch_did did, List.map_cons, rest]
      show some (some (Except.ok (Yield.mk [] [])), d'.status) :: _ = _
      rw [status]
      rfl

end Waits

/-! ### Joined waits -/

/-- No part of a tree of asks calls another. -/
theorem Tree.begin_alike (tree : Tree (Asked E)) (call₁ call₂ : L → Polling E H W (Polled E M S L own))
    (places : Places W M) : (tree.task : Task E M S L own).beginWith call₁ places own =
      (tree.task : Task E M S L own).beginWith call₂ places own := by
  induction tree with
  | leaf ask => rfl
  | join a b ihA ihB =>
    unfold task Task.beginWith
    rw [ihA, ihB]

/-- A tree of requests is not done before the first reply. -/
theorem Tree.polled_none (t : Tree Nat) :
    ∃ f, (t.polled (fun _ => none) : Polled E M S L own) = .pending f := by
  cases polled : (t.polled (fun _ => none) : Polled E M S L own) with
  | pending f => exact ⟨f, rfl⟩
  | ready result =>
    obtain ⟨id, member⟩ := List.exists_mem_of_ne_nil _ t.leaves_ne_nil
    exact absurd rfl (Tree.got_of_ready polled id member)

/-- Once a tree of asks is recorded, the driver waits for a reply to each. -/
theorem Waits.begun {tree : Tree Nat} {values : Nat → Value}
    {frames : List (Out M → Task E M S L own)} {world : W} {o o' : Outbox E}
    {order : List (Asked E × Nat)} {replies : List Nat} {f : Fut E M S L own}
    {d : Stepper (Stage E M S L own × W) E H} (asks : Outbox.Asks own order o o')
    (none_open : ∀ id, o.mail.lookup id = none)
    (suspended : (tree.polled (fun _ => none) : Polled E M S L own) = .pending f)
    (future : d.future = some (.running (f.within frames), world))
    (outbox : d.outbox = o'.drain.2.2) (polled : d.waker = own) (awaiting : d.status = .awaiting)
    (passes : ∀ ask id, (ask, id) ∈ order → ask.answer.check (values id) = some (.ok ()))
    (leaves : tree.leaves.Perm (order.map Prod.snd)) (all : replies.Perm (order.map Prod.snd)) :
    Waits tree values frames world o.mail.driver (o.mail.next + order.length) replies d := by
  refine ⟨⟨f, ?_, future⟩, ?_, ?_, polled, awaiting, fun id member => ?_, fun id absent => ?_⟩
  -- nothing has arrived that it waits for
  · rw [← suspended]
    refine Tree.polled_congr fun id member => ?_
    exact if_pos (all.mem_iff.mpr (leaves.mem_iff.mp member))
  · rw [outbox]
    exact asks.ready.kept.drain.1
  · rw [outbox, ← asks.next, ← asks.driver]
    show Outbox.mk [] o'.building o'.held _ o'.driverWaker [] = _
    rw [asks.ready.building, asks.ready.held, asks.ready.adopted]
    rfl
  · obtain ⟨⟨ask, _⟩, there, rfl⟩ := List.mem_map.mp (all.mem_iff.mp member)
    rw [outbox]
    exact ⟨ask.answer.check, asks.opened ask _ there, passes ask _ there⟩
  -- before the asks nothing was open, and after them nothing has been minted
  · rw [outbox]
    show o'.mail.lookup id = none
    rw [all.mem_iff, asks.ids, List.mem_range'_1] at absent
    have grew := asks.next
    by_cases early : id < o.mail.next
    · rw [asks.others id early]
      exact none_open id
    · exact asks.ready.kept.lookup_unminted (by omega)

/-- A routine comes to await nested `join`s of asks. The poll records all of them, with new ids one
after another. Their replies may come in any order: all but the last yield nothing, and the last
goes on with what each ask was replied in its place. -/
theorem joined_waits_ignore_the_order (src : Source E M S L W own) (driver : Nat)
    (task : Task E M S L own) (world : W) (doings : List (Doing H W))
    (d : Stepper (Stage E M S L own × W) E H)
    (ran : Transition.run (Stepper.does src.routine) (Source.start driver task world) doings = some d)
    (doing : Doing H W) (tree : Tree (Asked E)) (shared : Shared E H) (world' : W)
    (frames : List (Out M → Task E M S L own))
    (awaits : d.Awaits src doing tree.task (shared, world') frames) :
    ∃ (numbered : Tree (Asked E × Nat)) (order : List (Asked E × Nat))
      (d₁ : Stepper (Stage E M S L own × W) E H),
      numbered.map Prod.fst = tree ∧ order.Perm numbered.leaves ∧
      order.map Prod.snd = List.range' shared.outbox.mail.next tree.leaves.length ∧
      d.doing src.routine doing = some (some (.ok ⟨shared.outbox.effects ++
        order.map fun (ask, id) => ask.make ⟨shared.outbox.mail.driver, id⟩,
          shared.outbox.mail.closed⟩), d₁) ∧
      d₁.status = .awaiting ∧
      ∀ values : Nat → Value,
        (∀ ask id, (ask, id) ∈ order → ask.answer.check (values id) = some (.ok ())) →
        ∀ replies : List Nat, replies.Perm (order.map Prod.snd) → ∀ later : List (Doing H W),
          (d₁.watch src.routine (replies.map
              (fun id => .reply ⟨shared.outbox.mail.driver, id⟩ (values id)) ++ later)).map
                (Option.map Seen.answer) =
            List.replicate (tree.leaves.length - 1) (some (some (.ok ⟨[], []⟩), .awaiting)) ++
              ((Source.startAt shared.outbox.mail.driver
                (shared.outbox.mail.next + tree.leaves.length)
                ((Task.ret ((numbered.map Prod.snd).map values).out).within frames) world' :
                  Stepper (Stage E M S L own × W) E H).watch src.routine (.resume :: later)).map
                    (Option.map Seen.answer) := by
  obtain ⟨other, level⟩ := Stepper.level_run ran
  have built := (Stepper.built_run ran).2
  obtain ⟨ready, none_open⟩ := awaits.ready level built
  -- the first poll records every ask, and waits
  obtain ⟨numbered, order, o, begun, same, perm, asks⟩ :=
    tree.begins (src.callTo own src.depth) src.places world' ready
  obtain ⟨f, suspended⟩ : ∃ f, ((numbered.map Prod.snd).polled (fun _ => none) : Polled E M S L own) =
    .pending f := Tree.polled_none _
  rw [suspended] at begun
  obtain ⟨d₁, did, future, outbox, status, polled⟩ := awaits.pends level built fun depth => by
    rw [tree.begin_alike (src.callTo own depth) (src.callTo own src.depth)]
    exact begun
  have length : order.length = tree.leaves.length := by
    rw [← same, Tree.leaves_map, List.length_map, perm.length_eq]
  have ids : order.map Prod.snd = List.range' shared.outbox.mail.next tree.leaves.length :=
    length ▸ asks.ids
  have leaves : (numbered.map Prod.snd).leaves.Perm (order.map Prod.snd) := by
    rw [Tree.leaves_map]
    exact (perm.map Prod.snd).symm
  -- one ask is open at least, so it is awaited
  have awaiting : d₁.status = .awaiting := by
    obtain ⟨⟨ask, id⟩, member⟩ := List.exists_mem_of_ne_nil _ numbered.leaves_ne_nil
    rw [status]
    exact if_pos (asks.ready.kept.opened_pos (asks.opened ask id (perm.mem_iff.mpr member)))
  refine ⟨numbered, order, d₁, same, perm, ids, ?_, awaiting, fun values passes replies all later => ?_⟩
  · rw [did]
    dsimp only
    rw [asks.effects, asks.closed]
  · have once : replies.Nodup := by
      rw [all.nodup_iff, ids]
      exact List.nodup_range'
    have count : replies.length = tree.leaves.length := by
      rw [all.length_eq, List.length_map, length]
    -- from there on each reply is collected, and the last goes on
    have waits : Waits (numbered.map Prod.snd) values frames world' shared.outbox.mail.driver
        (shared.outbox.mail.next + order.length) replies d₁ :=
      .begun asks none_open suspended future outbox polled awaiting passes leaves all
    rw [length] at waits
    have some_left : replies ≠ [] := by
      rw [← List.length_pos_iff, count]
      exact List.length_pos_iff.mpr tree.leaves_ne_nil
    have seen := waits.run src (leaves.nodup_iff.mpr (all.nodup_iff.mp once)) once
      (fun id member => leaves.mem_iff.mpr (all.mem_iff.mp member)) some_left later
    rwa [count] at seen

/-- One ask of those that follow. -/
def asked : Asked String := ⟨anyAnswer .u64, fun _ => "ask"⟩

/-- Three asks, of which the last is recorded first. -/
def threeAsked : Tree (Asked String) := .join (.join (.leaf asked) (.leaf asked)) (.leaf asked)

theorem joined_waits_ignore_the_order_reversed :
    ∃ (effects : List String) (d₁ : Stepper (Stage String Empty Empty Empty 0 × Unit) String Nat),
      (Source.start 3 (.bind threeAsked.task fun _ => .tell "say") () :
          Stepper (Stage String Empty Empty Empty 0 × Unit) String Nat).doing alone.routine .resume =
        some (some (.ok ⟨effects, []⟩), d₁) ∧ effects.length = 3 ∧
      (d₁.watch alone.routine [.reply ⟨3, 3⟩ (.u64 3), .reply ⟨3, 2⟩ (.u64 2),
          .reply ⟨3, 1⟩ (.u64 1)]).map (Option.map Seen.answer) =
        (d₁.watch alone.routine [.reply ⟨3, 1⟩ (.u64 1), .reply ⟨3, 2⟩ (.u64 2),
          .reply ⟨3, 3⟩ (.u64 3)]).map (Option.map Seen.answer) := by
  let say : Out Empty → Task String Empty Empty Empty 0 := fun _ => .tell "say"
  let d : Stepper (Stage String Empty Empty Empty 0 × Unit) String Nat :=
    Source.start 3 (.bind threeAsked.task say) ()
  have awaits : d.Awaits alone .resume threeAsked.task (d.shared, ()) [say] :=
    ⟨d, _, (), .resume, rfl, .fresh (.within (.here _))⟩
  obtain ⟨numbered, order, d₁, same, perm, ids, did, _, rest⟩ :=
    joined_waits_ignore_the_order alone 3 (.bind threeAsked.task say) () [] d rfl .resume threeAsked
      d.shared () [say] awaits
  have passes : ∀ ask id, (ask, id) ∈ order →
      ask.answer.check (.u64 (UInt64.ofNat id)) = some (.ok ()) := by
    intro ask id member
    have there : ask ∈ (numbered.map Prod.fst).leaves := by
      rw [Tree.leaves_map]
      exact List.mem_map.mpr ⟨_, perm.mem_iff.mp member, rfl⟩
    rw [same] at there
    obtain rfl : ask = asked := by simpa [threeAsked, Tree.leaves] using there
    rfl
  have three : order.map Prod.snd = [1, 2, 3] := ids
  refine ⟨_, d₁, did, ?_, ?_⟩
  · have length := congrArg List.length three
    rw [List.length_map] at length
    exact (List.length_map ..).trans length
  · have reversed : [3, 2, 1].Perm (order.map Prod.snd) := by
      rw [three]
      decide
    let values : Nat → Value := fun id => .u64 (UInt64.ofNat id)
    exact (rest values passes [3, 2, 1] reversed []).trans
      (rest values passes [1, 2, 3] (.of_eq three.symm) []).symm

end SansEffort
