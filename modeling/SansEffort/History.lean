import SansEffort.Outbox
import Mathlib.Data.List.Nodup

/-!
# Histories

What an outbox is for, in terms of what has been done to it and nothing else: the life of
each request, the order of the effects, and the ids reported as closed. `Valid` histories are
the ones in which every operation answers as that order and those lives require. Histories are
lists of events, newest first.
-/

namespace SansEffort

/-- The life of a request. `discarded` is dropped with its reply unread. -/
inductive Life
  | unopened
  | waiting (answer : Answer)
  | answered (answer : Answer) (value : Value)
  | resolved (value : Value)
  | abandoned
  | discarded

namespace Life

def answer : Life → Option Answer
  | .waiting a => some a
  | .answered a _ => some a
  | _ => none

def value : Life → Option Value
  | .answered _ v => some v
  | _ => none

/-- A reply to it was accepted. -/
def replied : Life → Bool
  | .answered _ _ => true
  | .resolved _ => true
  | .discarded => true
  | _ => false

def deliver (v : Value) : Life → Life
  | .waiting a => .answered a v
  | .answered a _ => .answered a v
  | l => l

def collect : Life → Life
  | .answered _ v => .resolved v
  | l => l

def drop : Life → Life
  | .waiting _ => .abandoned
  | .answered _ _ => .discarded
  | l => l

end Life

variable {E : Type*}

def Life.step (id : Nat) (l : Life) : Event E → Life
  | .opened i _ a => if i = id then .waiting a else l
  | .delivered i v => if i = id then l.deliver v else l
  | .collected i _ => if i = id then l.collect else l
  | .dropped i => if i = id then l.drop else l
  | _ => l

def life (id : Nat) : List (Event E) → Life
  | [] => .unopened
  | event :: log => (life id log).step id event

/-! ### What a history lists -/

def minted : List (Event E) → List Nat
  | [] => []
  | .minted id :: log => id :: minted log
  | _ :: log => minted log

/-- The requests whose effect is being built. -/
def beingBuilt : List (Event E) → List Nat
  | [] => []
  | .minted id :: log => id :: beingBuilt log
  | .opened id _ _ :: log => (beingBuilt log).filter (· ≠ id)
  | .unreserved id :: log => (beingBuilt log).filter (· ≠ id)
  | _ :: log => beingBuilt log

/-- The answer type of each request opened. -/
def openings : List (Event E) → List (Nat × Answer)
  | [] => []
  | .opened id _ a :: log => (id, a) :: openings log
  | _ :: log => openings log

/-- The replies accepted. -/
def deliveries : List (Event E) → List (Nat × Value)
  | [] => []
  | .delivered id v :: log => (id, v) :: deliveries log
  | _ :: log => deliveries log

/-- The requests dropped before a reply, oldest first. -/
def abandonments : List (Event E) → List Nat
  | [] => []
  | .dropped id :: log =>
    match life id log with
    | .waiting _ => abandonments log ++ [id]
    | _ => abandonments log
  | _ :: log => abandonments log

def drains : List (Event E) → List (Yield E)
  | [] => []
  | .drained y :: log => y :: drains log
  | _ :: log => drains log

/-- The ids reported as closed, oldest first. -/
def listed : List (Event E) → List Nat
  | [] => []
  | .drained y :: log => listed log ++ y.closed
  | _ :: log => listed log

/-- The effects handed to the host, oldest first. -/
def emitted : List (Event E) → List E
  | [] => []
  | .drained y :: log => emitted log ++ y.effects
  | _ :: log => emitted log

def Held.fill (id : Nat) (effect : E) : Held E → Held E
  | .reserved r => if r = id then .ready effect else .reserved r
  | .ready e => .ready e

/-- Tells where they were called and asks where they were minted, oldest first: an ask being
built has its place, and one given up has none. -/
def recorded : List (Event E) → List (Held E)
  | [] => []
  | .told e :: log => recorded log ++ [.ready e]
  | .minted id :: log => recorded log ++ [.reserved id]
  | .opened id e _ :: log => (recorded log).map (Held.fill id e)
  | .unreserved id :: log => (recorded log).filter fun held => !held.isFor id
  | _ :: log => recorded log

/-- The effects before the first ask still being built. -/
def readyFront : List (Held E) → List E
  | .ready e :: rest => e :: readyFront rest
  | _ => []

/-! ### Valid histories -/

/-- What may be done next, and how it may answer. -/
def Allowed (log : List (Event E)) : Event E → Prop
  | .told _ => True
  | .minted id => 0 < id ∧ ∀ other ∈ minted log, other < id
  | .opened id _ _ => id ∈ beingBuilt log
  | .unreserved id => id ∈ beingBuilt log
  | .collected id value => value = (life id log).value
  | .dropped _ => True
  | .delivered id v => ∃ a, (life id log).answer = some a ∧ a.check v = some (.ok ())
  | .drained y =>
    emitted log ++ y.effects = readyFront (recorded log) ∧ listed log ++ y.closed = abandonments log

inductive Valid : List (Event E) → Prop
  | nil : Valid []
  | cons {event : Event E} {log : List (Event E)} (valid : Valid log)
      (allowed : Allowed log event) : Valid (event :: log)

theorem mem_openings_iff (log : List (Event E)) (id : Nat) (a : Answer) :
    (id, a) ∈ openings log ↔ ∃ e, .opened id e a ∈ log := by
  induction log with
  | nil => simp [openings]
  | cons event log ih =>
    cases event
    case opened i e b => simp [openings, ih, exists_or]
    all_goals simpa [openings] using ih

/-! ### Numbering -/

theorem beingBuilt_subset_minted (log : List (Event E)) : beingBuilt log ⊆ minted log := by
  induction log with
  | nil => exact List.Subset.refl _
  | cons event log ih =>
    cases event
    case minted id => exact List.cons_subset_cons id ih
    case opened id _ _ => exact List.Subset.trans List.filter_sublist.subset ih
    case unreserved id => exact List.Subset.trans List.filter_sublist.subset ih
    all_goals exact ih

/-- A request is minted, built and then opened: never two of these at once. -/
theorem Valid.opened_minted {log : List (Event E)} (valid : Valid log) (id : Nat)
    (opened : id ∈ (openings log).map Prod.fst) : id ∈ minted log ∧ id ∉ beingBuilt log := by
  induction valid with
  | nil => cases opened
  | @cons event log valid allowed ih =>
    cases event
    case minted new =>
      obtain ⟨known, built⟩ := ih opened
      refine ⟨List.mem_cons_of_mem _ known, fun member => ?_⟩
      rcases List.mem_cons.mp member with rfl | earlier
      · exact absurd (allowed.2 id known) (Nat.lt_irrefl id)
      · exact built earlier
    case opened new _ _ =>
      rcases List.mem_cons.mp opened with rfl | earlier
      · exact ⟨beingBuilt_subset_minted log allowed, by simp [beingBuilt]⟩
      · obtain ⟨known, built⟩ := ih earlier
        exact ⟨known, fun member => built (List.mem_filter.mp member).1⟩
    case unreserved new =>
      obtain ⟨known, built⟩ := ih opened
      exact ⟨known, fun member => built (List.mem_filter.mp member).1⟩
    all_goals exact ih opened

theorem Valid.openings_nodup {log : List (Event E)} (valid : Valid log) :
    ((openings log).map Prod.fst).Nodup := by
  induction valid with
  | nil => exact .nil
  | @cons event log valid allowed ih =>
    cases event
    case opened id _ _ =>
      exact List.nodup_cons.mpr ⟨fun earlier => (valid.opened_minted id earlier).2 allowed, ih⟩
    all_goals exact ih

/-- A request awaits one type of answer. -/
theorem Valid.openings_unique {log : List (Event E)} (valid : Valid log) {id : Nat}
    {a b : Answer} (one : (id, a) ∈ openings log) (two : (id, b) ∈ openings log) : a = b := by
  have := List.inj_on_of_nodup_map valid.openings_nodup one two rfl
  exact (Prod.mk.inj this).2

theorem Valid.minted_pos {log : List (Event E)} (valid : Valid log) (id : Nat)
    (member : id ∈ minted log) : 0 < id := by
  induction valid with
  | nil => cases member
  | @cons event log valid allowed ih =>
    cases event
    case minted new =>
      rcases List.mem_cons.mp member with rfl | earlier
      · exact allowed.1
      · exact ih earlier
    all_goals exact ih member

/-! ### Lives -/

/-- The request whose life an event may move. -/
def Event.about : Event E → Option Nat
  | .opened i _ _ => some i
  | .delivered i _ => some i
  | .collected i _ => some i
  | .dropped i => some i
  | _ => none

/-- One event moves the life of one request, and only one of four kinds of event does. -/
theorem Life.step_cases (id : Nat) (l : Life) (event : Event E) :
    (∃ e a, event = .opened id e a ∧ l.step id event = .waiting a) ∨
    (∃ v, event = .delivered id v ∧ l.step id event = l.deliver v) ∨
    (∃ v, event = .collected id v ∧ l.step id event = l.collect) ∨
    (event = .dropped id ∧ l.step id event = l.drop) ∨
    (l.step id event = l ∧ event.about ≠ some id) := by
  cases event
  case opened i e a =>
    by_cases same : i = id
    · subst same
      exact .inl ⟨e, a, rfl, if_pos rfl⟩
    · exact .inr (.inr (.inr (.inr ⟨if_neg same, by simp [Event.about, same]⟩)))
  case delivered i v =>
    by_cases same : i = id
    · subst same
      exact .inr (.inl ⟨v, rfl, if_pos rfl⟩)
    · exact .inr (.inr (.inr (.inr ⟨if_neg same, by simp [Event.about, same]⟩)))
  case collected i v =>
    by_cases same : i = id
    · subst same
      exact .inr (.inr (.inl ⟨v, rfl, if_pos rfl⟩))
    · exact .inr (.inr (.inr (.inr ⟨if_neg same, by simp [Event.about, same]⟩)))
  case dropped i =>
    by_cases same : i = id
    · subst same
      exact .inr (.inr (.inr (.inl ⟨rfl, if_pos rfl⟩)))
    · exact .inr (.inr (.inr (.inr ⟨if_neg same, by simp [Event.about, same]⟩)))
  all_goals exact .inr (.inr (.inr (.inr ⟨rfl, by simp [Event.about]⟩)))

@[simp] theorem Life.deliver_answer (l : Life) (v : Value) : (l.deliver v).answer = l.answer := by
  cases l <;> rfl

@[simp] theorem Life.deliver_eq_unopened (l : Life) (v : Value) :
    l.deliver v = .unopened ↔ l = .unopened := by
  cases l <;> simp [Life.deliver]

@[simp] theorem Life.collect_eq_unopened (l : Life) : l.collect = .unopened ↔ l = .unopened := by
  cases l <;> simp [Life.collect]

@[simp] theorem Life.drop_eq_unopened (l : Life) : l.drop = .unopened ↔ l = .unopened := by
  cases l <;> simp [Life.drop]

theorem Life.collect_answer {l : Life} {a : Answer} (alive : l.collect.answer = some a) :
    l.answer = some a := by
  cases l <;> first | exact alive | cases alive

theorem Life.drop_answer {l : Life} {a : Answer} : l.drop.answer ≠ some a := by
  cases l <;> simp [Life.drop, Life.answer]

theorem life_unopened_iff (id : Nat) (log : List (Event E)) :
    life id log = .unopened ↔ id ∉ (openings log).map Prod.fst := by
  induction log with
  | nil => simp [life, openings]
  | cons event log ih =>
    rw [life]
    obtain ⟨e, a, rfl, step⟩ | ⟨v, rfl, step⟩ | ⟨v, rfl, step⟩ | ⟨rfl, step⟩ | ⟨step, other⟩ :=
      Life.step_cases id (life id log) event
    · simp [step, openings]
    · rw [step, Life.deliver_eq_unopened]
      exact ih
    · rw [step, Life.collect_eq_unopened]
      exact ih
    · rw [step, Life.drop_eq_unopened]
      exact ih
    · rw [step, ih]
      cases event
      case opened i e a =>
        have away : ¬ id = i := fun same => other (same ▸ rfl)
        simp [openings, away]
      all_goals rfl

/-- A live request awaits the answer it was opened with. -/
theorem life_answer_opened (id : Nat) (log : List (Event E)) (a : Answer)
    (alive : (life id log).answer = some a) : (id, a) ∈ openings log := by
  induction log with
  | nil => cases alive
  | cons event log ih =>
    rw [life] at alive
    obtain ⟨e, b, rfl, step⟩ | ⟨v, rfl, step⟩ | ⟨v, rfl, step⟩ | ⟨rfl, step⟩ | ⟨step, other⟩ :=
      Life.step_cases id (life id log) event
    · rw [step] at alive
      cases alive
      exact List.mem_cons_self
    · rw [step, Life.deliver_answer] at alive
      exact ih alive
    · rw [step] at alive
      exact ih (Life.collect_answer alive)
    · rw [step] at alive
      exact absurd alive Life.drop_answer
    · rw [step] at alive
      cases event
      case opened => exact List.mem_cons_of_mem _ (ih alive)
      all_goals exact ih alive

/-! ### Replies and resolutions -/

theorem Life.collect_of_value_none {l : Life} (missing : l.value = none) : l.collect = l := by
  cases l <;> first | rfl | cases missing

theorem Life.value_eq_some {l : Life} {v : Value} (present : l.value = some v) :
    ∃ a, l = .answered a v := by
  cases l <;> cases present
  exact ⟨_, rfl⟩

theorem Valid.not_building_of_opened {log : List (Event E)} (valid : Valid log) (id : Nat)
    (building : id ∈ beingBuilt log) : life id log = .unopened := by
  rw [life_unopened_iff]
  exact fun opened => (valid.opened_minted id opened).2 building

/-- The replies accepted are to the requests whose life has had one. -/
theorem Valid.replied_iff {log : List (Event E)} (valid : Valid log) (id : Nat) :
    (life id log).replied = true ↔ id ∈ (deliveries log).map Prod.fst := by
  induction valid with
  | nil => simp [life, Life.replied, deliveries]
  | @cons event log valid allowed ih =>
    rw [life]
    obtain ⟨e, a, rfl, step⟩ | ⟨v, rfl, step⟩ | ⟨v, rfl, step⟩ | ⟨rfl, step⟩ | ⟨step, other⟩ :=
      Life.step_cases id (life id log) event
    · have fresh := valid.not_building_of_opened id allowed
      rw [fresh] at ih
      rw [step]
      exact ih
    · obtain ⟨a, alive, _⟩ := allowed
      rw [step]
      constructor
      · exact fun _ => List.mem_cons_self
      · intro _
        cases state : life id log <;> rw [state] at alive <;>
          first | rfl | cases alive
    · rw [step, show deliveries (.collected id v :: log) = deliveries log from rfl, ← ih]
      cases life id log <;> rfl
    · rw [step, show deliveries (.dropped id :: log) = deliveries log from rfl, ← ih]
      cases life id log <;> rfl
    · rw [step, ih]
      cases event
      case delivered i v =>
        have away : ¬ id = i := fun same => other (same ▸ rfl)
        simp [deliveries, away]
      all_goals rfl

/-- The requests dropped before a reply. -/
theorem Valid.abandoned_iff {log : List (Event E)} (valid : Valid log) (id : Nat) :
    id ∈ abandonments log ↔ life id log = .abandoned := by
  induction valid with
  | nil => simp [life, abandonments]
  | @cons event log valid allowed ih =>
    rw [life]
    obtain ⟨e, a, rfl, step⟩ | ⟨w, rfl, step⟩ | ⟨w, rfl, step⟩ | ⟨rfl, step⟩ | ⟨step, other⟩ :=
      Life.step_cases id (life id log) event
    · have fresh := valid.not_building_of_opened id allowed
      rw [step, show abandonments (.opened id e a :: log) = abandonments log from rfl, ih, fresh]
      simp
    · rw [step, show abandonments (.delivered id w :: log) = abandonments log from rfl, ih]
      cases life id log <;> simp [Life.deliver]
    · rw [step, show abandonments (.collected id w :: log) = abandonments log from rfl, ih]
      cases life id log <;> simp [Life.collect]
    · rw [step]
      cases state : life id log <;> rw [state] at ih <;>
        simp_all [abandonments, Life.drop]
    · rw [step, ← ih]
      cases event
      case dropped i =>
        have away : ¬ id = i := fun same => other (same ▸ rfl)
        simp only [abandonments]
        split <;> simp [away]
      all_goals rfl

theorem Valid.listed_prefix {log : List (Event E)} (valid : Valid log) :
    listed log <+: abandonments log := by
  induction valid with
  | nil => exact List.prefix_refl _
  | @cons event log valid allowed ih =>
    cases event
    case drained y => exact allowed.2 ▸ List.prefix_refl _
    case dropped id =>
      refine ih.trans ?_
      simp only [abandonments]
      split
      · exact List.prefix_append _ _
      · exact List.prefix_refl _
    all_goals exact ih

/-- What is reported as closed was abandoned, and is reported once. -/
theorem Valid.listed_abandoned {log : List (Event E)} (valid : Valid log) (id : Nat)
    (member : id ∈ listed log) : life id log = .abandoned :=
  (valid.abandoned_iff id).mp (valid.listed_prefix.subset member)

theorem readyFront_append (front : List E) (rest : List (Held E)) :
    readyFront (front.map .ready ++ rest) = front ++ readyFront rest := by
  induction front with
  | nil => rfl
  | cons e front ih => rw [List.map_cons, List.cons_append, readyFront, ih, List.cons_append]

theorem readyFront_spec (held : List (Held E)) :
    ∃ rest, held = (readyFront held).map .ready ++ rest ∧ ∀ e tail, rest ≠ .ready e :: tail := by
  induction held with
  | nil => exact ⟨[], rfl, by simp⟩
  | cons h held ih =>
    cases h with
    | reserved r => exact ⟨.reserved r :: held, rfl, by simp⟩
    | ready e =>
      obtain ⟨rest, whole, stops⟩ := ih
      exact ⟨rest, by rw [readyFront, List.map_cons, List.cons_append, ← whole], stops⟩

theorem ready_of_readyFront {held : List (Held E)} {e : E} (member : e ∈ readyFront held) :
    .ready e ∈ held := by
  obtain ⟨rest, whole, _⟩ := readyFront_spec held
  rw [whole]
  exact List.mem_append_left _ (List.mem_map_of_mem member)

/-- With every place filled, the front is everything. -/
theorem readyFront_all (held : List (Held E)) (filled : ∀ id, .reserved id ∉ held) :
    (readyFront held).map .ready = held := by
  obtain ⟨rest, whole, stops⟩ := readyFront_spec held
  cases rest with
  | nil => rw [List.append_nil] at whole; exact whole.symm
  | cons h rest =>
    cases h with
    | ready e => exact absurd rfl (stops e rest)
    | reserved id => exact absurd (whole ▸ by simp) (filled id)

/-- A place is kept for exactly the asks being built. -/
theorem Valid.reserved_iff {log : List (Event E)} (valid : Valid log) (id : Nat) :
    .reserved id ∈ recorded log ↔ id ∈ beingBuilt log := by
  induction valid with
  | nil => simp [recorded, beingBuilt]
  | @cons event log valid allowed ih =>
    cases event
    case told e => simpa [recorded, beingBuilt] using ih
    case minted new => simp [recorded, beingBuilt, ih, or_comm]
    case opened new e a =>
      simp only [recorded, beingBuilt, List.mem_map, List.mem_filter, decide_eq_true_eq, ← ih]
      constructor
      · rintro ⟨held, member, filled⟩
        cases held with
        | ready e => cases filled
        | reserved r =>
          simp only [Held.fill] at filled
          split at filled
          · cases filled
          · next away =>
            cases filled
            exact ⟨member, away⟩
      · rintro ⟨member, away⟩
        exact ⟨.reserved id, member, if_neg away⟩
    case unreserved new =>
      simp [recorded, beingBuilt, List.mem_filter, Held.isFor, ih]
    all_goals exact ih

/-- What is recorded was told or asked. -/
theorem recorded_origin (log : List (Event E)) (e : E) (member : .ready e ∈ recorded log) :
    .told e ∈ log ∨ ∃ id a, .opened id e a ∈ log := by
  induction log with
  | nil => cases member
  | cons event log ih =>
    have older : .ready e ∈ recorded log → .told e ∈ event :: log ∨
        ∃ id a, .opened id e a ∈ event :: log := by
      intro earlier
      rcases ih earlier with told | ⟨id, a, opened⟩
      · exact .inl (List.mem_cons_of_mem _ told)
      · exact .inr ⟨id, a, List.mem_cons_of_mem _ opened⟩
    cases event
    case told e' =>
      rcases List.mem_append.mp member with earlier | new
      · exact older earlier
      · cases List.mem_singleton.mp new
        exact .inl List.mem_cons_self
    case minted new =>
      rcases List.mem_append.mp member with earlier | new
      · exact older earlier
      · cases List.mem_singleton.mp new
    case opened id e' a =>
      obtain ⟨held, earlier, filled⟩ := List.mem_map.mp member
      cases held with
      | ready _ =>
        cases filled
        exact older earlier
      | reserved r =>
        simp only [Held.fill] at filled
        split at filled <;> cases filled
        exact .inr ⟨id, a, List.mem_cons_self⟩
    case unreserved id => exact older (List.mem_filter.mp member).1
    all_goals exact older member

/-- What was asked is recorded. -/
theorem Valid.opened_recorded {log : List (Event E)} (valid : Valid log) {id : Nat} {e : E}
    {a : Answer} (opened : .opened id e a ∈ log) : .ready e ∈ recorded log := by
  induction valid with
  | nil => cases opened
  | @cons event log valid allowed ih =>
    rcases List.mem_cons.mp opened with rfl | earlier
    · have place := (valid.reserved_iff id).mpr allowed
      exact List.mem_map.mpr ⟨_, place, if_pos rfl⟩
    · have before := ih earlier
      cases event
      case told => exact List.mem_append_left _ before
      case minted => exact List.mem_append_left _ before
      case opened => exact List.mem_map.mpr ⟨_, before, rfl⟩
      case unreserved => exact List.mem_filter.mpr ⟨before, rfl⟩
      all_goals exact before

private theorem readyFront_prefix_append (held more : List (Held E)) :
    readyFront held <+: readyFront (held ++ more) := by
  obtain ⟨rest, whole, _⟩ := readyFront_spec held
  rw [whole, List.append_assoc, readyFront_append, readyFront_append]
  have : readyFront rest = [] := by
    have := readyFront_append (readyFront held) rest
    rw [← whole] at this
    simpa using this.symm
  rw [this, List.append_nil]
  exact List.prefix_append _ _

/-- Effects only join the front: one ready to leave stays where it is. -/
theorem readyFront_grows (event : Event E) (log : List (Event E)) :
    readyFront (recorded log) <+: readyFront (recorded (event :: log)) := by
  obtain ⟨rest, whole, _⟩ := readyFront_spec (recorded log)
  cases event
  case told => exact readyFront_prefix_append _ _
  case minted => exact readyFront_prefix_append _ _
  case opened id e a =>
    rw [recorded, congrArg (List.map (Held.fill id e)) whole, List.map_append, List.map_map]
    rw [show Held.fill id e ∘ Held.ready = Held.ready from rfl, readyFront_append]
    exact List.prefix_append _ _
  case unreserved id =>
    rw [recorded, congrArg (List.filter fun held => !held.isFor id) whole, List.filter_append,
      List.filter_eq_self.mpr, readyFront_append]
    · exact List.prefix_append _ _
    · intro held member
      obtain ⟨e, _, rfl⟩ := List.mem_map.mp member
      rfl
  all_goals exact List.prefix_refl _

theorem drains_of_emitted {log : List (Event E)} {e : E} (member : e ∈ emitted log) :
    drains log ≠ [] := by
  induction log with
  | nil => cases member
  | cons event log ih =>
    cases event
    case drained y => exact List.cons_ne_nil _ _
    all_goals exact ih member

theorem Valid.emitted_prefix {log : List (Event E)} (valid : Valid log) :
    emitted log <+: readyFront (recorded log) := by
  induction valid with
  | nil => exact List.prefix_refl _
  | @cons event log valid allowed ih =>
    cases event
    case drained y => exact allowed.1 ▸ List.prefix_refl _
    all_goals exact ih.trans (readyFront_grows _ log)

/-! ### Numbers and places -/

/-- The request a place is for, where `label` reads it off the effect. -/
def Held.id (label : E → Option Nat) : Held E → Option Nat
  | .ready e => label e
  | .reserved id => some id

/-- A tell names no request, and an ask's effect none but its own. -/
structure Labelled (label : E → Option Nat) (log : List (Event E)) : Prop where
  told : ∀ e, .told e ∈ log → label e = none
  opened : ∀ id e a, .opened id e a ∈ log → label e = none ∨ label e = some id

theorem Labelled.of_cons {label : E → Option Nat} {event : Event E} {log : List (Event E)}
    (labelled : Labelled label (event :: log)) : Labelled label log :=
  ⟨fun e told => labelled.told e (List.mem_cons_of_mem _ told),
    fun id e a opened => labelled.opened id e a (List.mem_cons_of_mem _ opened)⟩

private theorem filterMap_map_sublist {α β : Type*} (f : α → Option β) (g : α → α)
    (keeps : ∀ x, f (g x) = none ∨ f (g x) = f x) (xs : List α) :
    ((xs.map g).filterMap f).Sublist (xs.filterMap f) := by
  induction xs with
  | nil => exact .slnil
  | cons x xs ih =>
    rw [List.map_cons, List.filterMap_cons, List.filterMap_cons]
    rcases keeps x with gone | same
    · rw [gone]
      cases f x with
      | none => exact ih
      | some y => exact ih.cons y
    · rw [same]
      cases f x with
      | none => exact ih
      | some y => exact ih.cons_cons y

/-- Places are in the order of their requests' ids. -/
theorem Valid.recorded_sorted {label : E → Option Nat} {log : List (Event E)} (valid : Valid log)
    (labelled : Labelled label log) :
    ((recorded log).filterMap (Held.id label)).Pairwise (· < ·) ∧
      (recorded log).filterMap (Held.id label) ⊆ minted log := by
  induction valid with
  | nil => exact ⟨.nil, List.Subset.refl _⟩
  | @cons event log valid allowed ih =>
    obtain ⟨sorted, known⟩ := ih labelled.of_cons
    cases event
    case told e =>
      -- told, not asked: no id
      have unlabelled := labelled.told e List.mem_cons_self
      simp only [recorded, List.filterMap_append, List.filterMap_cons, Held.id, unlabelled,
        List.filterMap_nil, List.append_nil]
      exact ⟨sorted, known⟩
    case minted new =>
      simp only [recorded, List.filterMap_append, List.filterMap_cons, Held.id, List.filterMap_nil,
        minted]
      constructor
      -- a minted id is above every other
      · refine List.pairwise_append.mpr ⟨sorted, List.pairwise_singleton _ _, ?_⟩
        intro id member _ single
        obtain rfl := List.mem_singleton.mp single
        exact allowed.2 id (known member)
      · intro id member
        rcases List.mem_append.mp member with earlier | last
        · exact List.mem_cons_of_mem _ (known earlier)
        · exact List.mem_singleton.mp last ▸ List.mem_cons_self
    case opened id e a =>
      have smaller : ((recorded (.opened id e a :: log)).filterMap (Held.id label)).Sublist
          ((recorded log).filterMap (Held.id label)) := by
        refine filterMap_map_sublist _ _ (fun held => ?_) _
        cases held with
        | ready _ => exact .inr rfl
        | reserved r =>
          simp only [Held.fill]
          -- a reserved place is filled by its own request
          split
          · next same =>
            subst same
            exact labelled.opened r e a List.mem_cons_self
          · exact .inr rfl
      exact ⟨sorted.sublist smaller, List.Subset.trans smaller.subset known⟩
    case unreserved id =>
      have smaller : ((recorded (.unreserved id :: log)).filterMap (Held.id label)).Sublist
          ((recorded log).filterMap (Held.id label)) := List.filter_sublist.filterMap _
      exact ⟨sorted.sublist smaller, List.Subset.trans smaller.subset known⟩
    all_goals exact ⟨sorted, known⟩

/-- An ask is ready to leave unless one minted before it is still being built. -/
theorem Valid.ready_front {label : E → Option Nat} {log : List (Event E)} (valid : Valid log)
    (labelled : Labelled label log) {id : Nat} {e : E} {a : Answer} (opened : .opened id e a ∈ log)
    (own : label e = some id) (first : ∀ r ∈ beingBuilt log, id < r) :
    e ∈ readyFront (recorded log) := by
  obtain ⟨rest, whole, stops⟩ := readyFront_spec (recorded log)
  have member := valid.opened_recorded opened
  rw [whole] at member
  rcases List.mem_append.mp member with front | behind
  · obtain ⟨_, inside, same⟩ := List.mem_map.mp front
    cases same
    exact inside
  · cases rest with
    | nil => cases behind
    | cons held rest =>
      cases held with
      | ready other => exact absurd rfl (stops other rest)
      | reserved r =>
        have building := (valid.reserved_iff r).mp (whole ▸ by simp)
        have inside : .ready e ∈ rest := by
          rcases List.mem_cons.mp behind with same | inside
          · cases same
          · exact inside
        have sorted := (valid.recorded_sorted labelled).1
        rw [whole, List.filterMap_append, List.pairwise_append] at sorted
        have above := (List.pairwise_cons.mp sorted.2.1).1 id
          (List.mem_filterMap.mpr ⟨_, inside, own⟩)
        exact absurd (first r building) (Nat.lt_asymm above)

/-- No request dropped unanswered was minted after an ask that is still being built. -/
def Unhindered (log : List (Event E)) : Prop :=
  ∀ id ∈ abandonments log, ∀ r ∈ beingBuilt log, id < r

instance (log : List (Event E)) : Decidable (Unhindered log) :=
  inferInstanceAs (Decidable (∀ id ∈ abandonments log, ∀ r ∈ beingBuilt log, id < r))

theorem Valid.reserved_nodup {log : List (Event E)} (valid : Valid log) :
    ((recorded log).filterMap (Held.id fun _ => none)).Nodup :=
  (valid.recorded_sorted ⟨fun _ _ => rfl, fun _ _ _ _ => .inl rfl⟩).1.imp Nat.ne_of_lt

end SansEffort
