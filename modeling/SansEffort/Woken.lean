import SansEffort.Armed

/-!
# Polling only what was woken

Two drivers run side by side, one of a routine whose asks are awaited directly and one of the same
routine with some of them in adapters. A reply takes the waker out of its request's slot, and the
adapter whose it is becomes due before the poll that the reply ends in. Nothing that can be seen
of the two differs.
-/

namespace SansEffort

variable {E H M S L W : Type} {own : Waker}

open Coupling

/-! ### Wakers -/

/-- What a reply does to the slot of the request it answers. -/
def Outbox.Replied (o o' : Outbox E) (id : Nat) (slot : Slot) (value : Value) : Prop :=
  o.mail.lookup id = some slot ∧
    Mail.Updated o.mail o'.mail id (some { slot with value := some value, waker := none }) []

/-- An adapter stays armed when a reply takes a waker out of a slot, if its waker fires when it is
its own. -/
theorem Awaited.Armed.fired {o o' : Outbox E} {id other : Nat} {slot : Slot} {value : Value}
    {awaited : Awaited S own} (armed : awaited.Armed o other)
    (replied : Outbox.Replied o o' id slot value) {waker : Waker} (kept : slot.waker = some waker) :
    (awaited.fire waker).2.Armed o' other := by
  obtain ⟨found, updated⟩ := replied
  obtain ⟨mine, found', ready⟩ := armed
  have lookup := updated.lookup other
  cases awaited with
  | none =>
    split at lookup
    · exact ⟨_, lookup, nofun⟩
    · exact ⟨_, lookup.trans found', nofun⟩
  | some held =>
    obtain ⟨adapter, s⟩ := held
    have ready := ready adapter s rfl
    unfold Awaited.fire
    by_cases own' : waker ∈ adapter.handed s
    · -- it is due from now on
      have due := adapter.fires s waker own'
      simp only [if_pos own']
      have ready' : ∀ a s', some (adapter, (adapter.fire s waker).2) = some (a, s') →
          a.due s' = true := by
        intro a s' same
        cases same
        exact due
      split at lookup
      · exact ⟨_, lookup, fun a s' same => .inl (ready' a s' same)⟩
      · exact ⟨_, lookup.trans found', fun a s' same => .inl (ready' a s' same)⟩
    · simp only [if_neg own']
      split at lookup
      · next same =>
        refine ⟨_, lookup, fun a s' held => .inl ?_⟩
        cases held
        rcases ready with due | ⟨_, w, handed, waiting⟩
        · exact due
        · -- the waker in its slot was its own
          subst same
          obtain rfl := Option.some.inj (found.symm.trans found')
          obtain rfl := Option.some.inj (kept.symm.trans waiting)
          exact absurd handed own'
      · refine ⟨mine, lookup.trans found', fun a s' held => ?_⟩
        cases held
        exact ready

theorem Awaited.Armed.unfired {o o' : Outbox E} {id other : Nat} {slot : Slot} {value : Value}
    {awaited : Awaited S own} (armed : awaited.Armed o other)
    (replied : Outbox.Replied o o' id slot value) (empty : slot.waker = none) :
    awaited.Armed o' other := by
  obtain ⟨found, updated⟩ := replied
  obtain ⟨mine, found', ready⟩ := armed
  have lookup := updated.lookup other
  split at lookup
  · next same =>
    refine ⟨_, lookup, fun a s' held => .inl ?_⟩
    rcases ready a s' held with due | ⟨_, w, _, waiting⟩
    · exact due
    · subst same
      obtain rfl := Option.some.inj (found.symm.trans found')
      cases empty.symm.trans waiting
  · exact ⟨mine, lookup.trans found', ready⟩

namespace Fut

theorem fire_ids (waker : Waker) (future : Fut E M S L own) :
    (future.fire waker).2.ids = future.ids := by
  induction future with
  | asked awaited id => rfl
  | receiving place => rfl
  | bind first next ih => exact ih
  | joinBoth a b ihA ihB => exact congrArg₂ (· ++ ·) ihA ihB
  | joinLeft a y ih => exact ih
  | joinRight x b ih => exact ih
  | select a b ihA ihB => exact congrArg₂ (· ++ ·) ihA ihB

theorem fire_plain (waker : Waker) (future : Fut E M S L own) :
    (future.fire waker).2.plain = future.plain := by
  induction future with
  | asked awaited id => rfl
  | receiving place => rfl
  | bind first next ih => exact congrArg (Fut.bind · _) ih
  | joinBoth a b ihA ihB => exact congrArg₂ Fut.joinBoth ihA ihB
  | joinLeft a y ih => exact congrArg (Fut.joinLeft · y) ih
  | joinRight x b ih => exact congrArg (Fut.joinRight x) ih
  | select a b ihA ihB => exact congrArg₂ Fut.select ihA ihB

/-- A future without adapters has no wakers of its own. -/
theorem plain_fire (waker : Waker) (future : Fut E M S L own) :
    future.plain.fire waker = (false, future.plain) := by
  induction future with
  | asked awaited id => rfl
  | receiving place => rfl
  | bind first next ih => simp only [plain, fire, ih]
  | joinBoth a b ihA ihB => simp only [plain, fire, ihA, ihB, Bool.or_self]
  | joinLeft a y ih => simp only [plain, fire, ih]
  | joinRight x b ih => simp only [plain, fire, ih]
  | select a b ihA ihB => simp only [plain, fire, ihA, ihB, Bool.or_self]

theorem Armed.fired {o o' : Outbox E} {id : Nat} {slot : Slot} {value : Value}
    {future : Fut E M S L own} (armed : future.Armed o)
    (replied : Outbox.Replied o o' id slot value) {waker : Waker} (kept : slot.waker = some waker) :
    (future.fire waker).2.Armed o' := by
  induction future with
  | asked awaited other => exact Awaited.Armed.fired armed replied kept
  | receiving place => trivial
  | bind first next ih => exact ih armed
  | joinBoth a b ihA ihB => exact ⟨ihA armed.1, ihB armed.2⟩
  | joinLeft a y ih => exact ih armed
  | joinRight x b ih => exact ih armed
  | select a b ihA ihB => exact ⟨ihA armed.1, ihB armed.2⟩

theorem Armed.unfired {o o' : Outbox E} {id : Nat} {slot : Slot} {value : Value}
    {future : Fut E M S L own} (armed : future.Armed o)
    (replied : Outbox.Replied o o' id slot value) (empty : slot.waker = none) : future.Armed o' := by
  induction future with
  | asked awaited other => exact Awaited.Armed.unfired armed replied empty
  | receiving place => trivial
  | bind first next ih => exact ih armed
  | joinBoth a b ihA ihB => exact ⟨ihA armed.1, ihB armed.2⟩
  | joinLeft a y ih => exact ih armed
  | joinRight x b ih => exact ih armed
  | select a b ihA ihB => exact ⟨ihA armed.1, ihB armed.2⟩

end Fut

/-! ### The routine -/

namespace Stage

def plain : Stage E M S L own → Stage E M S L own
  | .fresh task => .fresh task.plain
  | .running future => .running future.plain
  | .done => .done

def ids : Stage E M S L own → List Nat
  | .running future => future.ids
  | _ => []

def Armed (o : Outbox E) : Stage E M S L own → Prop
  | .running future => future.Armed o
  | _ => True

theorem fire_ids (waker : Waker) (stage : Stage E M S L own) : (stage.fire waker).2.ids = stage.ids := by
  cases stage with
  | running future => exact Fut.fire_ids waker future
  | fresh task => rfl
  | done => rfl

theorem fire_plain (waker : Waker) (stage : Stage E M S L own) :
    (stage.fire waker).2.plain = stage.plain := by
  cases stage with
  | running future => exact congrArg Stage.running (Fut.fire_plain waker future)
  | fresh task => rfl
  | done => rfl

theorem plain_fire (waker : Waker) (stage : Stage E M S L own) :
    stage.plain.fire waker = (false, stage.plain) := by
  cases stage with
  | running future => simp only [plain, fire, Fut.plain_fire]
  | fresh task => rfl
  | done => rfl

end Stage

/-- What a routine's polls return side by side. One that returns holds nothing. -/
structure Staged (ids : List Nat) (o : Outbox E) (p₁ : Poll × Stage E M S L own)
    (s₁ : Shared E H × W) (p₂ : Poll × Stage E M S L own) (s₂ : Shared E H × W) : Prop where
  poll : p₁.1 = p₂.1
  plain : p₁.2 = p₂.2.plain
  ended : p₂.1 = .ready → p₂.2 = .done
  beside : Beside own s₁ s₂
  moved : Outbox.Moved ids o s₂.1.outbox p₂.2.ids
  armed : p₂.2.Armed s₂.1.outbox

theorem coupled_stage (src : Source E M S L W own) (stage : Stage E M S L own)
    {s₁ s₂ : Shared E H × W} (beside : Beside own s₁ s₂)
    (holds : Outbox.Holds stage.ids s₂.1.outbox) (armed : stage.Armed s₂.1.outbox) :
    Coupled (Staged stage.ids s₂.1.outbox) (stage.plain.poll src.plain own) s₁
      (stage.poll src own) s₂ := by
  cases stage with
  | fresh task =>
    refine Coupled.bind (coupled_begin src task beside) ?_
    rintro _ t₁ p t₂ ⟨rfl, beside', moved, armed'⟩
    cases p with
    | ready result => exact coupled_pure ⟨rfl, rfl, fun _ => rfl, beside', moved, trivial⟩
    | pending future => exact coupled_pure ⟨rfl, rfl, nofun, beside', moved, armed'⟩
  | running future =>
    refine Coupled.bind (coupled_poll src future beside holds armed) ?_
    rintro _ t₁ p t₂ ⟨rfl, beside', moved, armed'⟩
    cases p with
    | ready result => exact coupled_pure ⟨rfl, rfl, fun _ => rfl, beside', moved, trivial⟩
    | pending future => exact coupled_pure ⟨rfl, rfl, nofun, beside', moved, armed'⟩
  | done => exact coupled_failure

/-! ### The drivers -/

/-- The requests that a driver's routine holds. -/
def held (future : Option (Stage E M S L own × W)) : List Nat :=
  match future with
  | some (stage, _) => stage.ids
  | none => []

/-- The drivers side by side, but for whether they have been woken. -/
structure Abreast (d₁ d₂ : Stepper (Stage E M S L own × W) E H) : Prop where
  future : d₁.future = d₂.future.map fun (stage, world) => (stage.plain, world)
  outbox : Outbox.Twin own d₁.outbox d₂.outbox
  hook : d₁.shared.wakeup.hook = d₂.shared.wakeup.hook
  hooked : d₁.shared.hooked = d₂.shared.hooked
  status : d₁.status = d₂.status
  polled₁ : d₁.waker = own
  polled₂ : d₂.waker = own
  holds : Outbox.Holds (held d₂.future) d₂.outbox
  armed : ∀ stage world, d₂.future = some (stage, world) → stage.Armed d₂.outbox
  -- nothing is open but what the routine holds
  others : ∀ id, id ∉ held d₂.future → d₂.outbox.mail.lookup id = none

/-- The drivers side by side, and woken or not alike. -/
structure Level (d₁ d₂ : Stepper (Stage E M S L own × W) E H) : Prop
    extends Abreast d₁ d₂ where
  woken : d₁.shared.wakeup.woken = d₂.shared.wakeup.woken

/-- The end of a poll, of routines that went alike. -/
theorem Abreast.finishPoll {d₁ d₂ : Stepper (Stage E M S L own × W) E H} (abreast : Abreast d₁ d₂)
    {stage : Stage E M S L own} {t₁ t₂ : Shared E H × W} (beside : Beside own t₁ t₂)
    (moved : Outbox.Moved (held d₂.future) d₂.outbox t₂.1.outbox stage.ids)
    (armed : stage.Armed t₂.1.outbox) (poll : Poll) {future : Option (Stage E M S L own × W)}
    (left : future = some (stage, t₂.2) ∨ future = none ∧ stage = .done) :
    (d₁.finishPoll poll (future.map fun (stage, world) => (stage.plain, world)) t₁.1).1 =
        (d₂.finishPoll poll future t₂.1).1 ∧
      Level (d₁.finishPoll poll (future.map fun (stage, world) => (stage.plain, world)) t₁.1).2
        (d₂.finishPoll poll future t₂.1).2 := by
  obtain ⟨yielded, outstanding, twin⟩ := beside.outbox.drain
  have holding : held future = stage.ids := by
    rcases left with rfl | ⟨rfl, rfl⟩ <;> rfl
  refine ⟨yielded, ⟨rfl, twin, congrArg Wakeup.hook beside.wakeup, beside.hooked, ?_, abreast.polled₁,
    abreast.polled₂, ?_, ?_, ?_⟩, congrArg Wakeup.woken beside.wakeup⟩
  · exact congrArg (Status.classify poll) outstanding
  · exact holding ▸ ⟨moved.holds.nodup, moved.holds.below⟩
  · rintro other world same
    obtain rfl : other = stage := by
      rcases left with whole | ⟨finished, _⟩
      · cases whole.symm.trans same
        rfl
      · cases finished.symm.trans same
    cases other with
    | running future => exact Fut.Armed.congr armed fun _ _ => rfl
    | fresh task => trivial
    | done => trivial
  · intro id absent
    have absent' : id ∉ stage.ids := holding ▸ absent
    show t₂.1.outbox.mail.lookup id = none
    by_cases mine : id ∈ held d₂.future ∨ d₂.outbox.mail.next ≤ id
    · exact moved.gone id mine absent'
    · obtain ⟨away, low⟩ := not_or.mp mine
      rw [moved.frame id away (by omega), abreast.others id away]

theorem Abreast.poll {d₁ d₂ : Stepper (Stage E M S L own × W) E H} (abreast : Abreast d₁ d₂)
    (src : Source E M S L W own)
    (finished : d₂.future = none → d₁.shared.wakeup.woken = d₂.shared.wakeup.woken) :
    Option.Rel (fun p₁ p₂ => p₁.1 = p₂.1 ∧ Level p₁.2 p₂.2) (d₁.poll src.plain.routine)
      (d₂.poll src.routine) := by
  cases future : d₂.future with
  | none =>
    have future₁ : d₁.future = none := by
      rw [abreast.future, future]
      rfl
    unfold Stepper.poll
    rw [future, future₁]
    exact .some ⟨rfl, abreast, finished future⟩
  | some part =>
    obtain ⟨stage, world⟩ := part
    have future₁ : d₁.future = some (stage.plain, world) := by
      rw [abreast.future, future]
      rfl
    have holding : held d₂.future = stage.ids := by rw [future]; rfl
    let cleared : Shared E H → Shared E H := fun shared =>
      { shared with wakeup := shared.wakeup.clear }
    have beside : Beside own (cleared d₁.shared, world) (cleared d₂.shared, world) := by
      refine ⟨abreast.outbox, ?_, abreast.hooked, rfl⟩
      show Wakeup.mk false d₁.shared.wakeup.hook = Wakeup.mk false d₂.shared.wakeup.hook
      rw [abreast.hook]
    -- the stages run coupled, from states that stand beside each other
    have ran := coupled_stage src stage beside (holding ▸ abreast.holds)
      (abreast.armed stage world future)
    have polls₁ : src.plain.routine.poll (stage.plain, world) d₁.waker (cleared d₁.shared) =
        ((stage.plain.poll src.plain own).run (cleared d₁.shared, world)).map
          fun p => ((p.1.1, p.1.2, p.2.2), p.2.1) := by
      rw [abreast.polled₁]
      rfl
    have polls₂ : src.routine.poll (stage, world) d₂.waker (cleared d₂.shared) =
        ((stage.poll src own).run (cleared d₂.shared, world)).map
          fun p => ((p.1.1, p.1.2, p.2.2), p.2.1) := by
      rw [abreast.polled₂]
      rfl
    unfold Stepper.poll
    rw [future, future₁]
    dsimp only
    rw [polls₁, polls₂]
    unfold Coupled at ran
    generalize (stage.plain.poll src.plain own).run (cleared d₁.shared, world) = r₁ at ran
    generalize (stage.poll src own).run (cleared d₂.shared, world) = r₂ at ran
    cases ran with
    | none => exact .none
    | @some q₁ q₂ staged =>
      obtain ⟨⟨poll₁, stage₁⟩, shared₁, world₁⟩ := q₁
      obtain ⟨⟨poll₂, stage₂⟩, shared₂, world₂⟩ := q₂
      obtain ⟨same, plain, ended, beside', moved, armed⟩ := staged
      dsimp only at same plain ended beside' moved armed
      subst same plain
      obtain rfl : world₁ = world₂ := beside'.world
      -- what the stage held is settled, or held by what it has become
      have moved' : Outbox.Moved (held d₂.future) d₂.outbox shared₂.outbox stage₂.ids :=
        holding ▸ moved
      cases poll₁ with
      | pending =>
        exact .some (abreast.finishPoll beside' moved' armed .pending (.inl rfl))
      | ready =>
        obtain rfl := ended rfl
        exact .some (abreast.finishPoll beside' moved' armed .ready (.inr ⟨rfl, rfl⟩))

/-! ### Replies -/

theorem Stage.Armed.fired {o o' : Outbox E} {id : Nat} {slot : Slot} {value : Value}
    {stage : Stage E M S L own} (armed : stage.Armed o)
    (replied : Outbox.Replied o o' id slot value) {waker : Waker} (kept : slot.waker = some waker) :
    (stage.fire waker).2.Armed o' := by
  cases stage with
  | running future => exact Fut.Armed.fired armed replied kept
  | fresh task => trivial
  | done => trivial

theorem Stage.Armed.unfired {o o' : Outbox E} {id : Nat} {slot : Slot} {value : Value}
    {stage : Stage E M S L own} (armed : stage.Armed o)
    (replied : Outbox.Replied o o' id slot value) (empty : slot.waker = none) : stage.Armed o' := by
  cases stage with
  | running future => exact Fut.Armed.unfired armed replied empty
  | fresh task => trivial
  | done => trivial

/-- A stage after a reply that handed over this waker. -/
def Stage.told (waker : Option Waker) (stage : Stage E M S L own) : Stage E M S L own :=
  (waker.map fun w => (stage.fire w).2).getD stage

theorem Stage.told_ids (waker : Option Waker) (stage : Stage E M S L own) :
    (stage.told waker).ids = stage.ids := by
  cases waker with
  | none => rfl
  | some waker => exact stage.fire_ids waker

theorem Stage.told_plain (waker : Option Waker) (stage : Stage E M S L own) :
    (stage.told waker).plain = stage.plain := by
  cases waker with
  | none => rfl
  | some waker => exact stage.fire_plain waker

theorem Stage.plain_told (waker : Option Waker) (stage : Stage E M S L own) :
    stage.plain.told waker = stage.plain := by
  cases waker with
  | none => rfl
  | some waker => exact congrArg Prod.snd (stage.plain_fire waker)

theorem Stage.Armed.told {o o' : Outbox E} {id : Nat} {slot : Slot} {value : Value}
    {stage : Stage E M S L own} (armed : stage.Armed o)
    (replied : Outbox.Replied o o' id slot value) : (stage.told slot.waker).Armed o' := by
  cases kept : slot.waker with
  | none => exact armed.unfired replied kept
  | some waker => exact armed.fired replied kept

/-- The driver as it is polled after a reply, once a waker handed over has been called. -/
def Stepper.replied (r : Routine (Stage E M S L own × W) E H)
    (d : Stepper (Stage E M S L own × W) E H) (waker : Option Waker) (outbox : Outbox E) :
    Option (Stepper (Stage E M S L own × W) E H) :=
  let d := { d with shared := { d.shared with outbox } }
  match waker with
  | none => some d
  | some waker =>
    let d := { d with shared := { d.shared with wakeup := d.shared.wakeup.hold } }
    match d.future with
    | some future => (r.wake future waker d.shared).map fun (future, shared) =>
        { d with future := some future, shared }
    | none => some d

theorem Stepper.tryReply_delivered (r : Routine (Stage E M S L own × W) E H)
    (d : Stepper (Stage E M S L own × W) E H) {reply : ReplyHandle} {value : Value}
    {waker : Option Waker} {outbox : Outbox E}
    (delivered : d.outbox.deliver reply value = some (.delivered waker, outbox)) :
    d.tryReply r reply value = (d.replied r waker outbox).bind fun d =>
      (d.poll r).map fun (yielded, d) => (.ok yielded, d) := by
  unfold Stepper.tryReply Stepper.replied
  rw [delivered]
  cases waker with
  | none => rfl
  | some waker => cases d.future <;> rfl

/-- What a reply leaves of a driver before its poll: all but whether it was woken, and what its
wakers did to its adapters. -/
theorem Stepper.replied_spec (src : Source E M S L W own) (d : Stepper (Stage E M S L own × W) E H)
    (waker : Option Waker) (outbox : Outbox E) :
    ∃ e, d.replied src.routine waker outbox = some e ∧
      e.future = d.future.map (fun (stage, world) => (stage.told waker, world)) ∧
      e.outbox = outbox ∧ e.shared.wakeup.hook = d.shared.wakeup.hook ∧
      e.shared.hooked = d.shared.hooked ∧ e.status = d.status ∧ e.waker = d.waker := by
  cases waker with
  | none =>
    refine ⟨_, rfl, ?_, rfl, rfl, rfl, rfl, rfl⟩
    cases d.future <;> rfl
  | some waker =>
    unfold Stepper.replied
    cases future : d.future with
    | none => exact ⟨_, rfl, rfl, rfl, rfl, rfl, rfl, rfl⟩
    | some part =>
      obtain ⟨stage, world⟩ := part
      -- held back, the wake changes nothing more
      have woke : (src.routine.wake (stage, world) waker
          ⟨outbox, d.shared.wakeup.hold, d.shared.hooked⟩) =
            some (((stage.fire waker).2, world), ⟨outbox, d.shared.wakeup.hold, d.shared.hooked⟩) := by
        show some (((stage.fire waker).2, world), if (stage.fire waker).1 then _ else _) = _
        split <;> rfl
      simp only [woke, Option.map_some]
      exact ⟨_, rfl, rfl, rfl, rfl, rfl, rfl, rfl⟩

/-- The reply was to a request that the routine holds, so the poll runs it. -/
theorem Abreast.replied {d₁ d₂ e₁ e₂ : Stepper (Stage E M S L own × W) E H}
    (abreast : Abreast d₁ d₂) (src : Source E M S L W own) {waker : Option Waker} {slot : Slot}
    {o₁ o₂ : Outbox E} {id : Nat} {value : Value} (twin : Outbox.Twin own o₁ o₂)
    (replied : Outbox.Replied d₂.outbox o₂ id slot value)
    (told₁ : d₁.replied src.plain.routine waker o₁ = some e₁)
    (told₂ : d₂.replied src.routine slot.waker o₂ = some e₂) :
    Abreast e₁ e₂ ∧ e₂.future ≠ none := by
  obtain ⟨_, same, future₁, rfl, hook₁, hooked₁, status₁, polled₁⟩ :=
    d₁.replied_spec src.plain waker o₁
  obtain rfl := Option.some.inj (told₁.symm.trans same)
  obtain ⟨_, same, future₂, rfl, hook₂, hooked₂, status₂, polled₂⟩ :=
    d₂.replied_spec src slot.waker o₂
  obtain rfl := Option.some.inj (told₂.symm.trans same)
  obtain ⟨found, updated⟩ := replied
  have holding : held e₂.future = held d₂.future := by
    rw [future₂]
    cases d₂.future with
    | none => rfl
    | some part => exact part.1.told_ids slot.waker
  -- no other request than those the routine holds is open
  have mine : id ∈ held d₂.future := by
    by_contra away
    cases found.symm.trans (abreast.others id away)
  refine ⟨⟨?_, twin, ?_, ?_, ?_, polled₁.trans abreast.polled₁, polled₂.trans abreast.polled₂,
    ?_, ?_, ?_⟩, ?_⟩
  · rw [future₁, future₂, abreast.future]
    cases d₂.future with
    | none => rfl
    | some part =>
      exact congrArg (fun stage => some (stage, part.2))
        ((part.1.plain_told waker).trans (part.1.told_plain slot.waker).symm)
  · rw [hook₁, hook₂, abreast.hook]
  · rw [hooked₁, hooked₂, abreast.hooked]
  · rw [status₁, status₂, abreast.status]
  · rw [holding]
    refine ⟨abreast.holds.nodup, fun other member => ?_⟩
    rw [updated.next]
    exact abreast.holds.below other member
  · intro stage world running
    rw [future₂] at running
    obtain ⟨⟨stage', world'⟩, earlier, same⟩ := Option.map_eq_some_iff.mp running
    cases same
    exact (abreast.armed _ _ earlier).told ⟨found, updated⟩
  · intro other away
    rw [holding] at away
    -- the others' slots are as they were
    have apart : other ≠ id := by
      rintro rfl
      exact away mine
    rw [updated.lookup, if_neg apart]
    exact abreast.others other away
  · intro finished
    rw [future₂, Option.map_eq_none_iff] at finished
    rw [finished] at mine
    cases mine

theorem Level.tryReply {d₁ d₂ : Stepper (Stage E M S L own × W) E H} (level : Level d₁ d₂)
    (src : Source E M S L W own) (reply : ReplyHandle) (value : Value) :
    Option.Rel (fun p₁ p₂ => p₁.1 = p₂.1 ∧ Level p₁.2 p₂.2)
      (d₁.tryReply src.plain.routine reply value) (d₂.tryReply src.routine reply value) := by
  obtain ⟨none₁, none₂⟩ | ⟨gone₁, gone₂⟩ | ⟨error, refused₁, refused₂⟩ |
    ⟨waker, slot, o₁, o₂, delivered₁, delivered₂, twin, found, updated⟩ :=
      level.outbox.deliver reply value
  · unfold Stepper.tryReply
    rw [none₁, none₂]
    exact .none
  · unfold Stepper.tryReply
    rw [gone₁, gone₂]
    exact .some ⟨rfl, level⟩
  · unfold Stepper.tryReply
    rw [refused₁, refused₂]
    exact .some ⟨rfl, level⟩
  · obtain ⟨e₁, told₁, _⟩ := d₁.replied_spec src.plain waker o₁
    obtain ⟨e₂, told₂, _⟩ := d₂.replied_spec src slot.waker o₂
    obtain ⟨abreast, unfinished⟩ := level.toAbreast.replied src twin ⟨found, updated⟩ told₁ told₂
    have polled := abreast.poll src fun finished => absurd finished unfinished
    rw [Stepper.tryReply_delivered _ _ delivered₁, Stepper.tryReply_delivered _ _ delivered₂, told₁,
      told₂]
    refine rel_map polled ?_
    rintro ⟨_, _⟩ ⟨_, _⟩ ⟨rfl, level'⟩
    exact ⟨rfl, level'⟩

/-! ### Whole runs -/

namespace Level

variable {d₁ d₂ : Stepper (Stage E M S L own × W) E H}

theorem wakeup (level : Level d₁ d₂) : d₁.shared.wakeup = d₂.shared.wakeup :=
  congrArg₂ Wakeup.mk level.woken level.hook

theorem wakeUp (level : Level d₁ d₂) : Level d₁.wakeUp d₂.wakeUp := by
  have told : d₁.wakeUp.shared.hooked = d₂.wakeUp.shared.hooked := by
    show (d₁.shared.wakeup.wakeUp.1.toList ++ _) = d₂.shared.wakeup.wakeUp.1.toList ++ _
    rw [level.wakeup, level.hooked]
  exact ⟨{ level.toAbreast with hooked := told }, rfl⟩

/-- The process is in the same state beside both, so it changes alike. -/
theorem inProcess (level : Level d₁ d₂) (change : W → Bool × W) :
    Level (d₁.inProcess change) (d₂.inProcess change) := by
  unfold Stepper.inProcess
  cases future : d₂.future with
  | none =>
    have future₁ : d₁.future = none := by
      rw [level.future, future]
      rfl
    rw [future₁]
    exact level
  | some part =>
    obtain ⟨stage, world⟩ := part
    have future₁ : d₁.future = some (stage.plain, world) := by
      rw [level.future, future]
      rfl
    have holding : held d₂.future = stage.ids := by rw [future]; rfl
    -- no part of the outbox or the stage changes
    have changed : Level { d₁ with future := some (stage.plain, (change world).2) }
        { d₂ with future := some (stage, (change world).2) } := by
      refine ⟨{ level.toAbreast with
        future := rfl
        holds := ?_
        armed := ?_
        others := ?_ }, level.woken⟩
      · show Outbox.Holds stage.ids _
        rw [← holding]
        exact level.holds
      · intro stage' world' running
        cases running
        exact level.armed stage world future
      · intro id away
        exact level.others id (by rwa [holding])
    rw [future₁]
    dsimp only
    cases (change world).1 with
    | true => exact changed.wakeUp
    | false => exact changed

theorem doing (level : Level d₁ d₂) (src : Source E M S L W own) (doing : Doing H W) :
    Option.Rel (fun p₁ p₂ => p₁.1 = p₂.1 ∧ Level p₁.2 p₂.2)
      (d₁.doing src.plain.routine doing) (d₂.doing src.routine doing) := by
  cases doing with
  | resume =>
    have polled := level.toAbreast.poll src fun _ => level.woken
    refine rel_map polled ?_
    rintro ⟨_, _⟩ ⟨_, _⟩ ⟨rfl, level'⟩
    exact ⟨rfl, level'⟩
  | reply reply value =>
    have replied := level.tryReply src reply value
    refine rel_map replied ?_
    rintro ⟨_, _⟩ ⟨_, _⟩ ⟨rfl, level'⟩
    exact ⟨rfl, level'⟩
  | inProcess change => exact .some ⟨rfl, level.inProcess change⟩
  | wake => exact .some ⟨rfl, level.wakeUp⟩
  | onWake hook => exact .some ⟨rfl, { level.toAbreast with hook := rfl }, level.woken⟩

theorem watch (level : Level d₁ d₂) (src : Source E M S L W own) (doings : List (Doing H W)) :
    d₁.watch src.plain.routine doings = d₂.watch src.routine doings := by
  induction doings generalizing d₁ d₂ with
  | nil => rfl
  | cons doing rest ih =>
    have did := level.doing src doing
    unfold Stepper.watch
    generalize d₁.doing src.plain.routine doing = r₁ at did
    generalize d₂.doing src.routine doing = r₂ at did
    cases did with
    | none => rfl
    | @some p₁ p₂ both =>
      obtain ⟨returned₁, e₁⟩ := p₁
      obtain ⟨returned₂, e₂⟩ := p₂
      obtain ⟨same, level'⟩ := both
      dsimp only at same level' ⊢
      rw [same, level'.status, level'.hooked, ih level']

end Level

theorem level_start (driver : Nat) (task : Task E M S L own) (world : W) :
    Level (Source.start driver task.plain world : Stepper (Stage E M S L own × W) E H)
      (Source.start driver task world) := by
  have kept : ((Outbox.new driver : Outbox E).adopt own).Kept :=
    (Outbox.kept_new driver).adopt own
  refine ⟨⟨rfl, ⟨kept, kept, rfl, rfl, rfl, rfl⟩, rfl, rfl, rfl, rfl, rfl, ⟨.nil, nofun⟩, ?_, ?_⟩, rfl⟩
  · intro stage world' running
    cases running
    trivial
  · intro id _
    rfl

/-- Whatever is done to a driver, its routine's adapters change nothing that can be seen of it. -/
theorem adapters_unseen (src : Source E M S L W own) (driver : Nat) (task : Task E M S L own)
    (world : W) (doings : List (Doing H W)) :
    (Source.start driver task.plain world).watch src.plain.routine doings =
      (Source.start driver task world).watch src.routine doings :=
  (level_start driver task world).watch src doings

-- The waker `7` that the request was polled with is called for the reply, and calls the driver's,
-- which is `0`. The driver polls right after, so the hook `9` is not told.
example :
    let ask : Task String Empty Flag Empty 0 :=
      .ask (some (whenWoken 7 (by decide))) ⟨.u64, fun _ => .ok ()⟩ fun _ => some "ask"
    let src : Source String Empty Flag Empty Unit 0 :=
      ⟨nofun, 0, ⟨fun _ _ _ => ((none, false), ()), fun _ _ => ()⟩⟩
    let start : Stepper _ String Nat := Source.start 3 (ask.bind fun _ => .tell "say") ()
    start.watch src.routine [.onWake 9, .resume, .reply ⟨3, 1⟩ (.u64 5)] =
      [some ⟨none, .awaiting, []⟩, some ⟨some (.ok ⟨["ask"], []⟩), .awaiting, []⟩,
        some ⟨some (.ok ⟨["say"], []⟩), .complete, []⟩] := by
  decide +kernel

end SansEffort
