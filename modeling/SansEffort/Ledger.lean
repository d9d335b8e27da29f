import SansEffort.History

/-!
# The outbox keeps its history

Every operation of the outbox answers as a valid history requires, and leaves the outbox as
that history says: the open slots are the live requests, and what waits behind an ask being
built is what the order says comes after it.
-/

namespace SansEffort

variable {E : Type*}

/-- What a slot holds for its request, whoever waits for it. -/
def Slot.content (slot : Slot) : Option Value × Check := (slot.value, slot.check)

/-- What the mailbox keeps for a request at each point of its life. -/
def Life.content : Life → Option (Option Value × Check)
  | .waiting a => some (none, a.check)
  | .answered a v => some (some v, a.check)
  | _ => none

/-- The mailbox is as the history says. -/
structure Mail.Keeps (m : Mail) (log : List (Event E)) : Prop where
  shape : m.Shape
  slots : ∀ id, (m.lookup id).map Slot.content = (life id log).content
  opened : ∀ slot ∈ m.slots, slot.id ∈ (openings log).map Prod.fst
  closed : listed log ++ m.closed = abandonments log
  numbered : ∀ id ∈ minted log, id < m.next
  positive : 0 < m.next

namespace Outbox

/-- What is recorded and cannot leave yet. -/
def waiting (o : Outbox E) : List (Held E) :=
  (o.building.map Held.reserved).toList ++ o.held

/-- An ask in `building` is alone, and what waits is behind an ask. -/
structure Queued (o : Outbox E) : Prop where
  alone : o.building.isSome = true → o.held = []
  blocked : ∀ e rest, o.held ≠ .ready e :: rest

/-- Everything recorded and not drained, in order. -/
def queue (o : Outbox E) : List (Held E) := o.effects.map .ready ++ o.waiting

/-- The outbox is as its history says. -/
structure Kept (o : Outbox E) : Prop where
  valid : Valid o.log
  mail : o.mail.Keeps o.log
  queued : o.Queued
  order : recorded o.log = (emitted o.log).map .ready ++ o.queue

end Outbox

/-! ### The mailbox -/

theorem openings_subset (event : Event E) (log : List (Event E)) :
    openings log ⊆ openings (event :: log) := by
  cases event
  case opened => exact List.subset_cons_self _ _
  all_goals exact List.Subset.refl _

theorem life_other {event : Event E} {id : Nat} (about : event.about = some id) (other : Nat)
    (away : other ≠ id) (log : List (Event E)) : life other (event :: log) = life other log := by
  cases event <;> cases about <;> exact if_neg away.symm

theorem Life.content_unopened {l : Life} {c : Option Value × Check} (here : l.content = some c) :
    l ≠ .unopened := by
  rintro rfl
  cases here

/-- An operation on one slot, matched by what its event does to one life. -/
theorem Mail.Keeps.updated {m m' : Mail} {log : List (Event E)} {event : Event E} {id : Nat}
    {slot : Option Slot} {closed : List Nat} (keeps : m.Keeps log)
    (updated : Mail.Updated m m' id slot closed) (about : event.about = some id)
    (content : slot.map Slot.content = (life id (event :: log)).content)
    (abandoned : abandonments (event :: log) = abandonments log ++ closed) :
    m'.Keeps (event :: log) := by
  have unlisted : listed (event :: log) = listed log := by
    cases event <;> first | rfl | cases about
  have unminted : minted (event :: log) = minted log := by
    cases event <;> first | rfl | cases about
  constructor
  case shape => exact updated.shape
  case slots =>
    intro other
    rw [updated.lookup]
    split
    · next here => rw [here, content]
    · next away => rw [life_other about other away, keeps.slots]
  case opened =>
    intro kept there
    rcases updated.ids kept there with ⟨old, member, same⟩ | ⟨same, present⟩
    · rw [← same]
      exact List.map_subset _ (openings_subset event log) (keeps.opened old member)
    · obtain ⟨new, rfl⟩ := Option.isSome_iff_exists.mp present
      rw [same]
      have := mt (life_unopened_iff id (event :: log)).mpr (Life.content_unopened content.symm)
      exact not_not.mp this
  case closed =>
    rw [unlisted, updated.closed, ← List.append_assoc, keeps.closed, abandoned]
  case numbered =>
    rw [unminted, updated.next]
    exact keeps.numbered
  case positive =>
    rw [updated.next]
    exact keeps.positive

theorem Mail.Keeps.lookup_none {m : Mail} {log : List (Event E)} (keeps : m.Keeps log) {id : Nat}
    (missing : m.lookup id = none) : (life id log).content = none := by
  rw [← keeps.slots, missing]
  rfl

theorem Mail.Keeps.lookup_some {m : Mail} {log : List (Event E)} (keeps : m.Keeps log) {id : Nat}
    {slot : Slot} (found : m.lookup id = some slot) :
    ∃ a, (life id log).answer = some a ∧ slot.check = a.check ∧ slot.value = (life id log).value ∧
      (slot.value = none → life id log = .waiting a) := by
  have content := keeps.slots id
  rw [found] at content
  cases state : life id log with
  | waiting a =>
    rw [state] at content
    obtain ⟨value, check⟩ := Prod.mk.inj (Option.some.inj content)
    exact ⟨a, rfl, check, value, fun _ => rfl⟩
  | answered a v =>
    rw [state] at content
    obtain ⟨value, check⟩ := Prod.mk.inj (Option.some.inj content)
    exact ⟨a, rfl, check, value, fun missing => by rw [missing] at value; cases value⟩
  | _ =>
    rw [state] at content
    cases content

theorem Life.value_of_content_none {l : Life} (missing : l.content = none) :
    l.value = none ∧ l.answer = none ∧ l.drop = l ∧ l.collect = l := by
  cases l <;> first | exact ⟨rfl, rfl, rfl, rfl⟩ | cases missing

/-! ### The operations -/

namespace Outbox

theorem kept_new (driver : Nat) : (new driver : Outbox E).Kept where
  valid := .nil
  mail := ⟨Mail.shape_new driver, fun _ => rfl, by simp [new, Mail.new], rfl,
    by simp [new, minted], by simp [new, Mail.new]⟩
  queued := ⟨fun _ => rfl, by simp [new]⟩
  order := rfl

/-- Recording adds to the end of the queue, whichever of the two places an ask being built is
kept in. -/
theorem Queued.record {o : Outbox E} (queued : o.Queued) (held : Held E) :
    (o.record held).Queued ∧ (o.record held).queue = o.queue ++ [held] ∧
      (o.record held).mail = o.mail ∧ (o.record held).log = o.log := by
  unfold Outbox.record queue waiting
  cases building : o.building with
  | some id =>
    have empty := queued.alone (by rw [building]; rfl)
    simp only [empty, List.nil_append, List.isEmpty_cons, Bool.not_false, if_true]
    exact ⟨⟨by simp, by simp⟩, by simp, trivial, trivial⟩
  | none =>
    cases waits : o.held with
    | cons first rest =>
      simp only [waits, List.isEmpty_cons, Bool.not_false, if_true]
      refine ⟨⟨by simp [building], ?_⟩, by simp [building], trivial, trivial⟩
      intro e tail same
      exact queued.blocked e rest (waits.trans (by rw [(List.cons.inj same).1]))
    | nil =>
      simp only [waits, List.isEmpty_nil, Bool.not_true, Bool.false_eq_true, if_false]
      cases held with
      | ready e => exact ⟨⟨fun _ => rfl, by simp⟩, by simp [building], rfl, rfl⟩
      | reserved id => exact ⟨⟨fun _ => rfl, by simp⟩, by simp, rfl, rfl⟩

/-- Releasing moves the ready front along without changing the order. -/
theorem release_spec (o : Outbox E) (none_building : o.building = none) :
    o.release.Queued ∧ o.release.queue = o.queue ∧ o.release.mail = o.mail ∧
      o.release.log = o.log := by
  obtain ⟨rest, whole, stops⟩ := readyFront_spec o.held
  have front : o.held.takeWhile Held.isReady = (readyFront o.held).map .ready := by
    rw [congrArg (List.takeWhile Held.isReady) whole, List.takeWhile_append_of_pos]
    · cases rest with
      | nil => simp
      | cons h rest =>
        cases h with
        | ready e => exact absurd rfl (stops e rest)
        | reserved id => simp [Held.isReady]
    · intro held member
      obtain ⟨e, _, rfl⟩ := List.mem_map.mp member
      rfl
  have left : o.held.drop (o.held.takeWhile Held.isReady).length = rest := by
    rw [front, congrArg (List.drop _) whole, List.drop_left]
  have moved : (o.held.takeWhile Held.isReady).filterMap Held.effect = readyFront o.held := by
    rw [front, List.filterMap_map]
    exact List.filterMap_some
  refine ⟨⟨?_, ?_⟩, ?_, rfl, rfl⟩
  · intro building
    change o.building.isSome = true at building
    rw [none_building] at building
    cases building
  · intro e tail same
    exact stops e tail (left.symm.trans same)
  · unfold queue waiting Outbox.release
    simp only [none_building, left, moved, Option.map_none, Option.toList_none, List.nil_append,
      List.map_append, List.append_assoc]
    rw [← whole]

/-- Filling does nothing where no place is reserved for the request. -/
theorem map_fill_of_absent {id : Nat} (effect : E) {held : List (Held E)}
    (absent : id ∉ held.filterMap (Held.id fun _ => none)) :
    held.map (Held.fill id effect) = held := by
  refine (List.map_congr_left fun h member => ?_).trans (List.map_id held)
  cases h with
  | ready _ => rfl
  | reserved r =>
    refine if_neg fun same => absent ?_
    exact List.mem_filterMap.mpr ⟨_, member, congrArg some same⟩

/-- Filling the one place reserved for a request. -/
theorem place_eq (held : List (Held E)) (id : Nat) (effect : E) (there : .reserved id ∈ held)
    (once : (held.filterMap (Held.id fun _ => none)).Nodup) :
    place held id effect = some (held.map (Held.fill id effect)) := by
  induction held with
  | nil => cases there
  | cons first rest ih =>
    cases first with
    | ready e =>
      rw [place, ih (by simpa using there) once]
      rfl
    | reserved r =>
      have parts : r ∉ rest.filterMap (Held.id fun _ => none) ∧
          (rest.filterMap (Held.id fun _ => none)).Nodup := by
        simpa [Held.id] using once
      by_cases same : r = id
      · subst same
        rw [place, if_pos rfl, List.map_cons, map_fill_of_absent effect parts.1, Held.fill, if_pos rfl]
      · have deeper : .reserved id ∈ rest := by
          rcases List.mem_cons.mp there with equal | deeper
          · cases equal
            exact absurd rfl same
          · exact deeper
        rw [place, if_neg same, ih deeper parts.2, List.map_cons, Held.fill, if_neg same]
        rfl

/-- The place of an ask being built is the one in `building`, or one of those held. -/
theorem Kept.building_cases {o : Outbox E} (kept : o.Kept) {id : Nat}
    (built : id ∈ beingBuilt o.log) :
    (o.building = some id ∧ o.held = []) ∨ (o.building = none ∧ .reserved id ∈ o.held) := by
  have there : .reserved id ∈ recorded o.log := (kept.valid.reserved_iff id).mpr built
  rw [kept.order, queue, waiting] at there
  cases building : o.building with
  | some other =>
    have empty := kept.queued.alone (by rw [building]; rfl)
    left
    simpa [building, empty, eq_comm] using there
  | none =>
    right
    simpa [building] using there

/-- Noting an event that the rest of the outbox already accounts for. -/
theorem kept_noting {o : Outbox E} {event : Event E} {log : List (Event E)} (same : o.log = log)
    (valid : Valid (event :: log)) (mail : o.mail.Keeps (event :: log)) (queued : o.Queued)
    (order : recorded (event :: log) = (emitted (event :: log)).map .ready ++ o.queue) :
    (o.noting event).Kept := by
  subst same
  exact ⟨valid, mail, ⟨queued.alone, queued.blocked⟩, order⟩

theorem Kept.tell {o : Outbox E} (kept : o.Kept) (effect : E) : (o.tell effect).Kept := by
  obtain ⟨queued, order, mail, log⟩ := kept.queued.record (.ready effect)
  refine kept_noting log (.cons kept.valid trivial) ?_ queued ?_
  · rw [mail]
    exact ⟨kept.mail.shape, kept.mail.slots, kept.mail.opened, kept.mail.closed,
      kept.mail.numbered, kept.mail.positive⟩
  · rw [order, ← List.append_assoc, emitted, ← kept.order]
    · rfl
    · simp

theorem Kept.mint {o : Outbox E} (kept : o.Kept) :
    o.mint.2.Kept ∧ o.mint.1 = ⟨o.mail.driver, o.mail.next⟩ ∧
      o.mint.2.log = .minted o.mail.next :: o.log := by
  let before : Outbox E := { o with mail := o.mail.mint.2 }
  have queued : before.Queued := ⟨kept.queued.alone, kept.queued.blocked⟩
  obtain ⟨queued, order, mail, log⟩ := queued.record (.reserved o.mail.next)
  have log : (before.record (.reserved o.mail.next)).log = o.log := log
  refine ⟨kept_noting log (.cons kept.valid ⟨kept.mail.positive, kept.mail.numbered⟩) ?_ queued ?_,
    rfl, congrArg (_ :: ·) log⟩
  · show (before.record (.reserved o.mail.next)).mail.Keeps (.minted o.mail.next :: o.log)
    rw [mail]
    refine ⟨⟨kept.mail.shape.sorted, kept.mail.shape.counted, kept.mail.shape.last_open,
      kept.mail.shape.few_closed⟩, kept.mail.slots, kept.mail.opened, kept.mail.closed, ?_,
      Nat.succ_pos _⟩
    intro id member
    rcases List.mem_cons.mp member with rfl | earlier
    · exact Nat.lt_succ_self _
    · exact Nat.lt_succ_of_lt (kept.mail.numbered id earlier)
  · show _ = _ ++ (before.record (.reserved o.mail.next)).queue
    rw [order, ← List.append_assoc, show before.queue = o.queue from rfl]
    show recorded (.minted o.mail.next :: o.log) = (emitted o.log).map .ready ++ o.queue ++ _
    rw [← kept.order]
    rfl

private theorem fill_ready (id : Nat) (e : E) (effects : List E) :
    (effects.map Held.ready).map (Held.fill id e) = effects.map .ready := by
  rw [List.map_map]
  rfl

private theorem filter_ready (id : Nat) (effects : List E) :
    (effects.map Held.ready).filter (fun held => !held.isFor id) = effects.map .ready := by
  refine List.filter_eq_self.mpr fun held member => ?_
  obtain ⟨_, _, rfl⟩ := List.mem_map.mp member
  rfl

theorem Kept.openRequest {o : Outbox E} (kept : o.Kept) {id : Nat} (built : id ∈ beingBuilt o.log)
    (effect : E) (answer : Answer) : (o.openRequest id effect answer).Kept := by
  have fresh : ∀ slot ∈ o.mail.slots, slot.id ≠ id := by
    rintro slot member rfl
    exact (kept.valid.opened_minted _ (kept.mail.opened slot member)).2 built
  have valid : Valid (.opened id effect answer :: o.log) := .cons kept.valid built
  have mail : (o.mail.openSlot id answer.check).Keeps (.opened id effect answer :: o.log) := by
    refine kept.mail.updated (kept.mail.shape.openSlot answer.check fresh) rfl ?_
      (List.append_nil _).symm
    rw [life, Life.step, if_pos rfl]
    rfl
  have filled : recorded (.opened id effect answer :: o.log) =
      (emitted o.log).map .ready ++ o.effects.map .ready ++
        o.waiting.map (Held.fill id effect) := by
    rw [recorded, kept.order, queue, List.map_append, List.map_append, fill_ready, fill_ready,
      List.append_assoc]
  unfold Outbox.openRequest
  rcases kept.building_cases built with ⟨building, empty⟩ | ⟨building, there⟩
  · simp only [building, if_true]
    refine kept_noting rfl valid mail ⟨fun _ => empty, by simp [empty]⟩ ?_
    rw [filled, waiting, building, empty]
    simp [queue, waiting, Held.fill, emitted]
  · have once : (o.held.filterMap (Held.id fun _ => none)).Nodup := by
      have := kept.valid.reserved_nodup
      rw [kept.order, queue, waiting, List.filterMap_append, List.filterMap_append,
        List.filterMap_append] at this
      exact (List.nodup_append.mp (List.nodup_append.mp (List.nodup_append.mp this).2.1).2.1).2.1
    simp only [building, reduceCtorEq, if_false, place_eq o.held id effect there once]
    obtain ⟨queued, order, same, log⟩ := release_spec
      { o with
        building := none, mail := o.mail.openSlot id answer.check
        held := o.held.map (Held.fill id effect) } rfl
    refine kept_noting log valid (same ▸ mail) queued ?_
    rw [order, filled, waiting, building]
    simp [queue, waiting, emitted]

theorem Kept.unreserve {o : Outbox E} (kept : o.Kept) {id : Nat} (built : id ∈ beingBuilt o.log) :
    (o.unreserve id).Kept := by
  have valid : Valid (.unreserved id :: o.log) := .cons kept.valid built
  have mail : o.mail.Keeps (.unreserved id :: o.log) :=
    ⟨kept.mail.shape, kept.mail.slots, kept.mail.opened, kept.mail.closed, kept.mail.numbered,
      kept.mail.positive⟩
  have filtered : recorded (.unreserved id :: o.log) =
      (emitted o.log).map .ready ++ o.effects.map .ready ++
        o.waiting.filter fun held => !held.isFor id := by
    rw [recorded, kept.order, queue, List.filter_append, List.filter_append, filter_ready,
      filter_ready, List.append_assoc]
  unfold Outbox.unreserve
  rcases kept.building_cases built with ⟨building, empty⟩ | ⟨building, there⟩
  · simp only [building, if_true]
    refine kept_noting rfl valid mail ⟨fun _ => empty, by simp [empty]⟩ ?_
    rw [filtered, waiting, building, empty]
    simp [queue, waiting, Held.isFor, emitted]
  · simp only [building, reduceCtorEq, if_false]
    obtain ⟨queued, order, same, log⟩ := release_spec
      { o with building := none, held := o.held.filter fun held => !held.isFor id } rfl
    refine kept_noting log valid (same ▸ mail) queued ?_
    rw [order, filtered, waiting, building]
    simp [queue, waiting, emitted]

theorem Kept.adopt {o : Outbox E} (kept : o.Kept) (waker : Waker) : (o.adopt waker).Kept :=
  ⟨kept.valid, kept.mail, ⟨kept.queued.alone, kept.queued.blocked⟩, kept.order⟩

theorem Kept.collect {o : Outbox E} (kept : o.Kept) (id : Nat) (waker : Waker) :
    (o.collect id waker).2.Kept ∧ (o.collect id waker).1 = (life id o.log).value := by
  unfold Outbox.collect
  dsimp only
  generalize (if o.driverWaker.any (· == waker) then none else some waker) = other
  have handed : (o.mail.collect id other).1 = (life id o.log).value ∧
      (o.mail.collect id other).2.Keeps (.collected id (life id o.log).value :: o.log) := by
    obtain ⟨slot, v, found, value, handed, updated⟩ | ⟨missing, handed, kept', updated⟩ :=
      kept.mail.shape.collect id other
    · obtain ⟨a, alive, check, same, _⟩ := kept.mail.lookup_some found
      have answered : (life id o.log).value = some v := same ▸ value
      obtain ⟨b, state⟩ := Life.value_eq_some answered
      refine ⟨handed.trans answered.symm, kept.mail.updated updated rfl ?_ (List.append_nil _).symm⟩
      rw [life, Life.step, if_pos rfl, state]
      rfl
    · have unanswered : (life id o.log).value = none := by
        cases found : o.mail.lookup id with
        | none => exact (Life.value_of_content_none (kept.mail.lookup_none found)).1
        | some slot =>
          obtain ⟨_, _, _, same, _⟩ := kept.mail.lookup_some found
          rw [found] at missing
          exact same ▸ missing
      refine ⟨handed.trans unanswered.symm,
        kept.mail.updated updated rfl ?_ (List.append_nil _).symm⟩
      rw [life, Life.step, if_pos rfl, Life.collect_of_value_none unanswered, ← kept.mail.slots,
        Option.map_map]
      rfl
  rw [handed.1]
  exact ⟨kept_noting rfl (.cons kept.valid rfl) handed.2
    ⟨kept.queued.alone, kept.queued.blocked⟩ kept.order, rfl⟩

theorem Kept.close {o : Outbox E} (kept : o.Kept) (id : Nat) : (o.close id).Kept := by
  refine kept_noting rfl (.cons kept.valid trivial) ?_
    ⟨kept.queued.alone, kept.queued.blocked⟩ kept.order
  refine kept.mail.updated (kept.mail.shape.close id) rfl ?_ ?_
  · rw [life, Life.step, if_pos rfl]
    cases life id o.log <;> rfl
  · rw [abandonments]
    cases found : o.mail.lookup id with
    | none =>
      have dead := (Life.value_of_content_none (kept.mail.lookup_none found)).2.1
      cases state : life id o.log with
      | waiting => rw [state] at dead; cases dead
      | _ => simp
    | some slot =>
      obtain ⟨a, alive, _, value, waits⟩ := kept.mail.lookup_some found
      cases state : life id o.log with
      | waiting =>
        rw [state] at value
        simp [show slot.value = none from value]
      | answered =>
        rw [state] at value
        simp [show slot.value = some _ from value]
      | _ => rw [state] at alive; cases alive

/-- A reply to a live request, by what its answer's check says of the value. -/
theorem Kept.deliver {o : Outbox E} (kept : o.Kept) (reply : ReplyHandle) (value : Value)
    (own : reply.driver = o.mail.driver) :
    match (life reply.id o.log).answer with
    -- no slot: the request is answered, closed or unknown
    | none => o.deliver reply value = some (.gone, o)
    | some a =>
      match a.check value with
      | none => o.deliver reply value = none
      | some (.error error) => o.deliver reply value = some (.refused reply error, o)
      | some (.ok ()) => ∃ waker after, o.deliver reply value = some (.delivered waker, after) ∧
          after.Kept ∧ after.log = .delivered reply.id value :: o.log ∧
          after.mail.driver = o.mail.driver := by
  have delivered := kept.mail.shape.deliver reply value own
  unfold Outbox.deliver
  cases found : o.mail.lookup reply.id with
  | none =>
    rw [found] at delivered
    rw [(Life.value_of_content_none (kept.mail.lookup_none found)).2.1]
    simp only at delivered ⊢
    rw [delivered]
    rfl
  | some slot =>
    -- the slot checks as the request's answer does
    obtain ⟨a, alive, check, _⟩ := kept.mail.lookup_some found
    rw [found] at delivered
    rw [alive]
    simp only [check] at delivered ⊢
    cases verdict : a.check value with
    | none =>
      rw [verdict] at delivered
      simp only at delivered ⊢
      rw [delivered]
      rfl
    | some result =>
      cases result with
      | error error =>
        rw [verdict] at delivered
        simp only at delivered ⊢
        rw [delivered]
        rfl
      | ok _ =>
        rw [verdict] at delivered
        obtain ⟨mail, delivered, updated⟩ := delivered
        rw [delivered]
        refine ⟨slot.waker, _, rfl, ?_, rfl, updated.driver⟩
        refine kept_noting rfl (.cons kept.valid ⟨a, alive, verdict⟩) ?_
          ⟨kept.queued.alone, kept.queued.blocked⟩ kept.order
        refine kept.mail.updated updated rfl ?_ (List.append_nil _).symm
        -- the slot holds what the request's life says
        rw [life, Life.step, if_pos rfl]
        cases state : life reply.id o.log <;> rw [state] at alive <;> cases alive <;>
          simp [Slot.content, Life.deliver, Life.content]

/-- A drain hands over the front of the queue and every id abandoned since the last. -/
theorem Kept.drain {o : Outbox E} (kept : o.Kept) :
    o.drain.2.2.Kept ∧ o.drain.2.2.log = .drained o.drain.1 :: o.log := by
  have front : readyFront o.waiting = [] := by
    unfold waiting
    cases building : o.building with
    | some id => rfl
    | none =>
      cases held : o.held with
      | nil => rfl
      | cons first rest =>
        cases first with
        | ready e => exact absurd held (kept.queued.blocked e rest)
        | reserved id => rfl
  refine ⟨kept_noting rfl (.cons kept.valid ⟨?_, kept.mail.closed⟩) ?_
    ⟨kept.queued.alone, kept.queued.blocked⟩ ?_, rfl⟩
  · show emitted o.log ++ o.effects = readyFront (recorded o.log)
    rw [kept.order, queue, readyFront_append, readyFront_append, front, List.append_nil]
  · refine ⟨⟨kept.mail.shape.sorted, kept.mail.shape.counted, kept.mail.shape.last_open,
      kept.mail.shape.few_closed⟩, kept.mail.slots, kept.mail.opened, ?_, kept.mail.numbered,
      kept.mail.positive⟩
    show listed o.log ++ o.mail.closed ++ [] = _
    rw [List.append_nil, kept.mail.closed]
    rfl
  · show recorded o.log = (emitted o.log ++ o.effects).map .ready ++ ([] ++ o.waiting)
    rw [kept.order, queue, List.map_append, List.append_assoc, List.nil_append]

end Outbox

end SansEffort
