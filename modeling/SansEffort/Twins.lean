import SansEffort.Combinators

/-!
# Twin outboxes

Two outboxes whose histories differ by polls that found nothing. What an outbox does is what its
history says it must, and such polls do not change that: the two drain the same, and answer every
operation alike. What a future may do to the outbox is said by the requests it holds.
-/

namespace SansEffort

variable {E H M S L W : Type} {own : Waker}

/-! ### Histories without fruitless polls -/

def Event.isFruitless : Event E → Bool
  | .collected _ none => true
  | _ => false

def fruitful (log : List (Event E)) : List (Event E) := log.filter fun event => !event.isFruitless

theorem fruitful_fruitless (id : Nat) (log : List (Event E)) :
    fruitful (.collected id none :: log) = fruitful log := rfl

theorem Valid.life_fruitful {log : List (Event E)} (valid : Valid log) (id : Nat) :
    life id (fruitful log) = life id log := by
  induction valid with
  | nil => rfl
  | @cons event log valid allowed ih =>
    by_cases fruitless : event.isFruitless = true
    · obtain ⟨i, rfl⟩ : ∃ i, event = .collected i none := by
        cases event
        case collected i v =>
          cases v with
          | none => exact ⟨i, rfl⟩
          | some v => cases fruitless
        all_goals cases fruitless
      rw [fruitful_fruitless, ih, life, Life.step]
      split
      · next same =>
        subst same
        exact (Life.collect_of_value_none (Eq.symm allowed)).symm
      · rfl
    · have kept : fruitful (event :: log) = event :: fruitful log :=
        List.filter_cons_of_pos (by simpa using fruitless)
      rw [kept, life, life, ih]

theorem recorded_fruitful (log : List (Event E)) : recorded (fruitful log) = recorded log := by
  induction log with
  | nil => rfl
  | cons event log ih =>
    cases event
    case collected id v => cases v <;> exact ih
    all_goals
      show recorded (_ :: fruitful log) = _
      simp only [recorded, ih]

theorem emitted_fruitful (log : List (Event E)) : emitted (fruitful log) = emitted log := by
  induction log with
  | nil => rfl
  | cons event log ih =>
    cases event
    case collected id v => cases v <;> exact ih
    all_goals
      show emitted (_ :: fruitful log) = _
      simp only [emitted, ih]

theorem listed_fruitful (log : List (Event E)) : listed (fruitful log) = listed log := by
  induction log with
  | nil => rfl
  | cons event log ih =>
    cases event
    case collected id v => cases v <;> exact ih
    all_goals
      show listed (_ :: fruitful log) = _
      simp only [listed, ih]

theorem Valid.abandonments_fruitful {log : List (Event E)} (valid : Valid log) :
    abandonments (fruitful log) = abandonments log := by
  induction valid with
  | nil => rfl
  | @cons event log valid allowed ih =>
    cases event
    case collected id v => cases v <;> exact ih
    all_goals
      show abandonments (_ :: fruitful log) = _
      simp only [abandonments, ih, valid.life_fruitful]

/-- Requests that live alike have as many open slots. -/
theorem Mail.Keeps.opened_eq {m₁ m₂ : Mail} {log₁ log₂ : List (Event E)} (keeps₁ : m₁.Keeps log₁)
    (keeps₂ : m₂.Keeps log₂) (lives : ∀ id, life id log₁ = life id log₂) :
    m₁.opened = m₂.opened := by
  have nodup : ∀ m : Mail, m.Shape → ((m.slots.filter (·.isOpen)).map Slot.id).Nodup := by
    intro m shape
    have sorted := shape.sorted.sublist (List.filter_sublist (p := (·.isOpen)))
    exact List.pairwise_map.mpr (sorted.imp Nat.ne_of_lt)
  have same : ((m₁.slots.filter (·.isOpen)).map Slot.id).Perm
      ((m₂.slots.filter (·.isOpen)).map Slot.id) := by
    refine (List.perm_ext_iff_of_nodup (nodup m₁ keeps₁.shape) (nodup m₂ keeps₂.shape)).mpr ?_
    intro id
    rw [← lookup_isSome_iff, ← lookup_isSome_iff, ← Option.isSome_map (f := Slot.content),
      keeps₁.slots, lives, ← keeps₂.slots, Option.isSome_map]
  have length := same.length_eq
  rw [List.length_map, List.length_map] at length
  rw [keeps₁.shape.counted, keeps₂.shape.counted, length]

namespace Outbox

/-! ### What the operations leave alone -/

theorem record_driverWaker (o : Outbox E) (held : Held E) :
    (o.record held).driverWaker = o.driverWaker := by
  unfold Outbox.record
  cases o.building <;> cases held <;> dsimp only <;> split <;> rfl

theorem openRequest_driverWaker (o : Outbox E) (id : Nat) (effect : E) (answer : Answer) :
    (o.openRequest id effect answer).driverWaker = o.driverWaker := by
  unfold Outbox.openRequest
  dsimp only
  split
  · rfl
  · split <;> rfl

theorem Kept.collect_numbers {o : Outbox E} (kept : o.Kept) (id : Nat) (waker : Waker) :
    (o.collect id waker).2.mail.next = o.mail.next ∧
      (o.collect id waker).2.mail.driver = o.mail.driver := by
  obtain ⟨_, _, _, _, _, updated⟩ | ⟨_, _, _, updated⟩ := kept.mail.shape.collect id
    (if o.driverWaker.any (· == waker) then none else some waker)
  · exact ⟨updated.next, updated.driver⟩
  · exact ⟨updated.next, updated.driver⟩

theorem deliver_next {o after : Outbox E} {reply : ReplyHandle} {value : Value}
    {delivery : Delivery} (delivered : o.deliver reply value = some (delivery, after)) :
    after.mail.next = o.mail.next := by
  have mailed : ∀ delivery mail, o.mail.deliver reply value = some (delivery, mail) →
      mail.next = o.mail.next := by
    intro delivery mail delivered
    unfold Mail.deliver at delivered
    split at delivered
    · cases delivered
    · split at delivered
      · cases delivered
        rfl
      · obtain ⟨verdict, _, same⟩ := Option.map_eq_some_iff.mp delivered
        cases verdict <;> cases same <;> rfl
  obtain ⟨⟨outcome, mail⟩, delivered, same⟩ := Option.map_eq_some_iff.mp delivered
  rw [← mailed _ _ delivered]
  cases outcome <;> cases same <;> rfl

/-! ### Outboxes alike -/

/-- The same has been done to both, but for polls that found nothing. The second is adopted by a
driver with the waker `own`. -/
structure Twin (own : Waker) (o₁ o₂ : Outbox E) : Prop where
  kept₁ : o₁.Kept
  kept₂ : o₂.Kept
  log : fruitful o₁.log = fruitful o₂.log
  next : o₁.mail.next = o₂.mail.next
  driver : o₁.mail.driver = o₂.mail.driver
  adopted : o₂.driverWaker = some own

namespace Twin

variable {o₁ o₂ : Outbox E}

theorem life (twin : Twin own o₁ o₂) (id : Nat) :
    SansEffort.life id o₁.log = SansEffort.life id o₂.log := by
  rw [← twin.kept₁.valid.life_fruitful, ← twin.kept₂.valid.life_fruitful, twin.log]

/-- Both drains hand over the same, and leave as many requests open. -/
theorem drain (twin : Twin own o₁ o₂) :
    o₁.drain.1 = o₂.drain.1 ∧ o₁.drain.2.1 = o₂.drain.2.1 ∧
      Twin own o₁.drain.2.2 o₂.drain.2.2 := by
  obtain ⟨kept₁, log₁⟩ := twin.kept₁.drain
  obtain ⟨kept₂, log₂⟩ := twin.kept₂.drain
  have emitted : emitted o₁.log = emitted o₂.log := by
    rw [← emitted_fruitful, ← emitted_fruitful o₂.log, twin.log]
  have listed : listed o₁.log = listed o₂.log := by
    rw [← listed_fruitful, ← listed_fruitful o₂.log, twin.log]
  have recorded : recorded o₁.log = recorded o₂.log := by
    rw [← recorded_fruitful, ← recorded_fruitful o₂.log, twin.log]
  have abandoned : abandonments o₁.log = abandonments o₂.log := by
    rw [← twin.kept₁.valid.abandonments_fruitful, ← twin.kept₂.valid.abandonments_fruitful, twin.log]
  -- a drain's yield is what its history allows it to be
  have yielded : o₁.drain.1 = o₂.drain.1 := by
    have valid₁ := log₁ ▸ kept₁.valid
    have valid₂ := log₂ ▸ kept₂.valid
    cases valid₁ with
    | cons _ allowed₁ =>
      cases valid₂ with
      | cons _ allowed₂ =>
        obtain ⟨front₁, closed₁⟩ := allowed₁
        obtain ⟨front₂, closed₂⟩ := allowed₂
        rw [emitted, recorded, ← front₂] at front₁
        rw [listed, abandoned, ← closed₂] at closed₁
        have effects := List.append_cancel_left front₁
        have closed := List.append_cancel_left closed₁
        exact Yield.mk.injEq _ _ _ _ ▸ ⟨effects, closed⟩
  refine ⟨yielded, ?_, kept₁, kept₂, ?_, twin.next, twin.driver, twin.adopted⟩
  · exact twin.kept₁.mail.opened_eq twin.kept₂.mail twin.life
  · rw [log₁, log₂, yielded]
    exact congrArg (_ :: ·) twin.log

theorem tell (twin : Twin own o₁ o₂) (effect : E) : Twin own (o₁.tell effect) (o₂.tell effect) := by
  have mail : ∀ o : Outbox E, (o.tell effect).mail = o.mail := fun o => record_mail o _
  refine ⟨twin.kept₁.tell effect, twin.kept₂.tell effect, ?_, ?_, ?_, ?_⟩
  · rw [tell_log, tell_log]
    exact congrArg (_ :: ·) twin.log
  · rw [mail, mail]
    exact twin.next
  · rw [mail, mail]
    exact twin.driver
  · exact (record_driverWaker o₂ _).trans twin.adopted

theorem mint (twin : Twin own o₁ o₂) :
    o₁.mint.1 = o₂.mint.1 ∧ Twin own o₁.mint.2 o₂.mint.2 := by
  obtain ⟨kept₁, reply₁, log₁⟩ := twin.kept₁.mint
  obtain ⟨kept₂, reply₂, log₂⟩ := twin.kept₂.mint
  have mail : ∀ o : Outbox E, o.mint.2.mail = o.mail.mint.2 := fun o =>
    record_mail { o with mail := o.mail.mint.2 } _
  refine ⟨?_, kept₁, kept₂, ?_, ?_, ?_, ?_⟩
  · rw [reply₁, reply₂, twin.next, twin.driver]
  · rw [log₁, log₂, twin.next]
    exact congrArg (_ :: ·) twin.log
  · rw [mail, mail]
    exact congrArg (· + 1) twin.next
  · rw [mail, mail]
    exact twin.driver
  · exact (record_driverWaker { o₂ with mail := o₂.mail.mint.2 } _).trans twin.adopted

theorem openRequest (twin : Twin own o₁ o₂) {id : Nat} (built₁ : id ∈ beingBuilt o₁.log)
    (built₂ : id ∈ beingBuilt o₂.log) (effect : E) (answer : Answer) :
    Twin own (o₁.openRequest id effect answer) (o₂.openRequest id effect answer) := by
  refine ⟨twin.kept₁.openRequest built₁ effect answer, twin.kept₂.openRequest built₂ effect answer,
    ?_, ?_, ?_, ?_⟩
  · rw [openRequest_log, openRequest_log]
    exact congrArg (_ :: ·) twin.log
  · rw [openRequest_mail, openRequest_mail]
    exact twin.next
  · rw [openRequest_mail, openRequest_mail]
    exact twin.driver
  · exact (openRequest_driverWaker o₂ id effect answer).trans twin.adopted

theorem collect (twin : Twin own o₁ o₂) (id : Nat) (w₁ w₂ : Waker) :
    (o₁.collect id w₁).1 = (o₂.collect id w₂).1 ∧
      Twin own (o₁.collect id w₁).2 (o₂.collect id w₂).2 := by
  obtain ⟨kept₁, value₁⟩ := twin.kept₁.collect id w₁
  obtain ⟨kept₂, value₂⟩ := twin.kept₂.collect id w₂
  have same : (o₁.collect id w₁).1 = (o₂.collect id w₂).1 := by rw [value₁, value₂, twin.life]
  have numbers₁ := twin.kept₁.collect_numbers id w₁
  have numbers₂ := twin.kept₂.collect_numbers id w₂
  refine ⟨same, kept₁, kept₂, ?_, ?_, ?_, twin.adopted⟩
  · show fruitful (.collected id (o₁.collect id w₁).1 :: o₁.log) =
      fruitful (.collected id (o₂.collect id w₂).1 :: o₂.log)
    rw [same]
    unfold fruitful
    rw [List.filter_cons, List.filter_cons]
    split
    · exact congrArg (_ :: ·) twin.log
    · exact twin.log
  · rw [numbers₁.1, numbers₂.1, twin.next]
  · rw [numbers₁.2, numbers₂.2, twin.driver]

/-- The outboxes stay twins when one polls a request in vain and the other does not poll it. -/
theorem collect_fruitless (twin : Twin own o₁ o₂) {id : Nat}
    (missing : (SansEffort.life id o₂.log).value = none) (w : Waker) :
    (o₁.collect id w).1 = none ∧ Twin own (o₁.collect id w).2 o₂ := by
  obtain ⟨kept₁, value⟩ := twin.kept₁.collect id w
  rw [twin.life, missing] at value
  have numbers := twin.kept₁.collect_numbers id w
  refine ⟨value, kept₁, twin.kept₂, ?_, ?_, ?_, twin.adopted⟩
  · show fruitful (.collected id (o₁.collect id w).1 :: o₁.log) = _
    rw [value, fruitful_fruitless]
    exact twin.log
  · rw [numbers.1, twin.next]
  · rw [numbers.2, twin.driver]

theorem close (twin : Twin own o₁ o₂) (id : Nat) : Twin own (o₁.close id) (o₂.close id) := by
  have updated₁ := twin.kept₁.mail.shape.close id
  have updated₂ := twin.kept₂.mail.shape.close id
  refine ⟨twin.kept₁.close id, twin.kept₂.close id, congrArg (_ :: ·) twin.log, ?_, ?_,
    twin.adopted⟩
  · exact updated₁.next.trans (twin.next.trans updated₂.next.symm)
  · exact updated₁.driver.trans (twin.driver.trans updated₂.driver.symm)

/-- A reply fares alike. If it is delivered, the second hands over what its slot had for a waker. -/
theorem deliver (twin : Twin own o₁ o₂) (reply : ReplyHandle) (value : Value) :
    (o₁.deliver reply value = none ∧ o₂.deliver reply value = none) ∨
    (o₁.deliver reply value = some (.gone, o₁) ∧ o₂.deliver reply value = some (.gone, o₂)) ∨
    (∃ error, o₁.deliver reply value = some (.refused reply error, o₁) ∧
      o₂.deliver reply value = some (.refused reply error, o₂)) ∨
    ∃ waker slot after₁ after₂, o₁.deliver reply value = some (.delivered waker, after₁) ∧
      o₂.deliver reply value = some (.delivered slot.waker, after₂) ∧ Twin own after₁ after₂ ∧
      o₂.mail.lookup reply.id = some slot ∧ Mail.Updated o₂.mail after₂.mail reply.id
        (some { slot with value := some value, waker := none }) [] := by
  by_cases own₂ : reply.driver = o₂.mail.driver
  -- a handle of another driver's panics
  · have own₁ := own₂.trans twin.driver.symm
    have first := twin.kept₁.deliver reply value own₁
    have second := twin.kept₂.deliver reply value own₂
    rw [twin.life] at first
    cases found : o₂.mail.lookup reply.id with
    -- the request is closed, in both
    | none =>
      rw [(Life.value_of_content_none (twin.kept₂.mail.lookup_none found)).2.1] at first second
      exact .inr (.inl ⟨first, second⟩)
    -- it is open in both, with one check
    | some slot =>
      obtain ⟨a, alive, check, _⟩ := twin.kept₂.mail.lookup_some found
      have mailed := twin.kept₂.mail.shape.deliver reply value own₂
      simp only [alive] at first second
      simp only [found] at mailed
      cases verdict : a.check value with
      | none =>
        rw [verdict] at first second
        exact .inl ⟨first, second⟩
      | some outcome =>
        rw [verdict] at first second
        rw [show slot.check value = some outcome by rw [check, verdict]] at mailed
        cases outcome with
        | error error => exact .inr (.inr (.inl ⟨error, first, second⟩))
        | ok _ =>
          obtain ⟨waker, after₁, delivered₁, kept₁, log₁, driver₁⟩ := first
          obtain ⟨mail, delivered, updated⟩ := mailed
          have delivered₂ : o₂.deliver reply value = some (.delivered slot.waker,
              { o₂ with mail }.noting (.delivered reply.id value)) := by
            unfold Outbox.deliver
            rw [delivered]
            rfl
          have kept₂ := twin.kept₂.delivered delivered₂
          refine .inr (.inr (.inr ⟨waker, slot, after₁, _, delivered₁, delivered₂, ?_, rfl, updated⟩))
          -- the wakers may differ, and the log does not name them
          refine ⟨kept₁, kept₂, ?_, ?_, ?_, twin.adopted⟩
          · rw [log₁]
            exact congrArg (_ :: ·) twin.log
          · exact (deliver_next delivered₁).trans (twin.next.trans updated.next.symm)
          · exact driver₁.trans (twin.driver.trans updated.driver.symm)
  · have own₁ : reply.driver ≠ o₁.mail.driver := fun own => own₂ (own.trans twin.driver)
    left
    constructor <;> unfold Outbox.deliver Mail.deliver
    · rw [if_pos own₁]
      rfl
    · rw [if_pos own₂]
      rfl

end Twin

/-! ### Which requests a future holds -/

/-- The requests are distinct, and minted. -/
structure Holds (ids : List Nat) (o : Outbox E) : Prop where
  nodup : ids.Nodup
  below : ∀ id ∈ ids, id < o.mail.next

/-- From `o` to `o'` only the requests in `ids` were touched, and new ones made. Those in `ids'`
are what is left of them. -/
structure Moved (ids : List Nat) (o o' : Outbox E) (ids' : List Nat) : Prop where
  next : o.mail.next ≤ o'.mail.next
  holds : Holds ids' o'
  frame : ∀ id, id ∉ ids → id < o.mail.next → o'.mail.lookup id = o.mail.lookup id
  fresh : ∀ id ∈ ids', id ∈ ids ∨ o.mail.next ≤ id
  gone : ∀ id, id ∈ ids ∨ o.mail.next ≤ id → id ∉ ids' → o'.mail.lookup id = none

theorem Kept.lookup_unminted {o : Outbox E} (kept : o.Kept) {id : Nat} (high : o.mail.next ≤ id) :
    o.mail.lookup id = none := by
  cases found : o.mail.lookup id with
  | none => rfl
  | some slot =>
    obtain ⟨member, _, rfl⟩ := (kept.mail.shape.lookup_eq_some_iff id slot).mp found
    have opened := kept.mail.opened slot member
    have := kept.mail.numbered _ (kept.valid.opened_minted _ opened).1
    omega

namespace Moved

variable {o o' o'' : Outbox E} {ids ids' ids'' : List Nat}

theorem refl (kept : o.Kept) (holds : Holds ids o) : Moved ids o o ids := by
  refine ⟨Nat.le_refl _, holds, fun _ _ _ => rfl, fun _ member => .inl member, ?_⟩
  rintro id (member | high) absent
  · exact absurd member absent
  · exact kept.lookup_unminted high

theorem trans (first : Moved ids o o' ids') (second : Moved ids' o' o'' ids'') :
    Moved ids o o'' ids'' := by
  have grew := first.next
  refine ⟨Nat.le_trans grew second.next, second.holds, fun id away low => ?_, fun id member => ?_,
    fun id mine absent => ?_⟩
  · have away' : id ∉ ids' := by
      intro member
      rcases first.fresh id member with here | high
      · exact away here
      · omega
    rw [second.frame id away' (by omega), first.frame id away low]
  · rcases second.fresh id member with earlier | high
    · exact first.fresh id earlier
    · right
      omega
  · by_cases held : id ∈ ids' ∨ o'.mail.next ≤ id
    · exact second.gone id held absent
    · obtain ⟨away, low⟩ := not_or.mp held
      rw [second.frame id away (by omega), first.gone id mine away]

/-- Beside requests that are held elsewhere. -/
theorem beside {rest : List Nat} (moved : Moved ids o o' ids') (holds : Holds (ids ++ rest) o) :
    Moved (ids ++ rest) o o' (ids' ++ rest) := by
  obtain ⟨nodup, below⟩ := holds
  obtain ⟨_, nodup', apart⟩ := List.nodup_append.mp nodup
  have low : ∀ id ∈ rest, id < o.mail.next := fun id member =>
    below id (List.mem_append_right _ member)
  have grew := moved.next
  refine ⟨grew, ⟨?_, ?_⟩, ?_, ?_, ?_⟩
  · refine List.nodup_append.mpr ⟨moved.holds.nodup, nodup', ?_⟩
    rintro id member _ other rfl
    rcases moved.fresh id member with here | high
    · exact apart id here id other rfl
    · have := low id other
      omega
  · intro id member
    rcases List.mem_append.mp member with mine | other
    · exact moved.holds.below id mine
    · have := low id other
      omega
  · intro id away
    exact moved.frame id fun member => away (List.mem_append_left _ member)
  · intro id member
    rcases List.mem_append.mp member with mine | other
    · exact (moved.fresh id mine).imp_left (List.mem_append_left _)
    · exact .inl (List.mem_append_right _ other)
  · intro id mine absent
    rw [List.mem_append, not_or] at absent
    refine moved.gone id ?_ absent.1
    rw [List.mem_append] at mine
    tauto

theorem swap (moved : Moved ids o o' ids') {ids₁ ids₂ : List Nat} (perm : ids.Perm ids₁)
    (perm' : ids'.Perm ids₂) : Moved ids₁ o o' ids₂ := by
  refine ⟨moved.next, ⟨perm'.nodup_iff.mp moved.holds.nodup, fun id member => ?_⟩,
    fun id away => ?_, fun id member => ?_, fun id mine absent => ?_⟩
  · exact moved.holds.below id (perm'.mem_iff.mpr member)
  · exact moved.frame id fun member => away (perm.mem_iff.mp member)
  · rw [← perm.mem_iff]
    exact moved.fresh id (perm'.mem_iff.mpr member)
  · rw [← perm.mem_iff] at mine
    exact moved.gone id mine fun member => absent (perm'.mem_iff.mp member)

/-- Two moves, each of requests that the other leaves alone. -/
theorem both {others others' : List Nat} (first : Moved ids o o' ids')
    (second : Moved others o' o'' others') (holds : Holds (ids ++ others) o) :
    Moved (ids ++ others) o o'' (ids' ++ others') := by
  have early := first.beside holds
  have perm : (ids' ++ others).Perm (others ++ ids') := List.perm_append_comm
  have holds' : Holds (others ++ ids') o' :=
    ⟨perm.nodup_iff.mp early.holds.nodup, fun id member =>
      early.holds.below id (perm.mem_iff.mpr member)⟩
  exact early.trans ((second.beside holds').swap perm.symm List.perm_append_comm)

end Moved

theorem Holds.swap {o : Outbox E} {ids ids' : List Nat} (holds : Holds ids o)
    (perm : ids.Perm ids') : Holds ids' o :=
  ⟨perm.nodup_iff.mp holds.nodup, fun id member => holds.below id (perm.mem_iff.mpr member)⟩

/-! ### What each operation touches -/

section

variable {o o' : Outbox E} {id : Nat} {closed : List Nat}

/-- An operation on one request leaves it open, or ends it. -/
theorem moved_open (kept : o.Kept) (low : id < o.mail.next) {slot : Option Slot}
    (updated : Mail.Updated o.mail o'.mail id slot closed) : Moved [id] o o' [id] := by
  have next := updated.next
  refine ⟨by omega, ⟨by simp, ?_⟩, fun other away _ => ?_, fun other member => .inl member, ?_⟩
  · intro other member
    obtain rfl := List.mem_singleton.mp member
    omega
  · rw [updated.lookup, if_neg (by simpa using away)]
  · rintro other (mine | high) absent
    · exact absurd mine absent
    · rw [updated.lookup, if_neg (by simpa using absent)]
      exact kept.lookup_unminted high

theorem moved_ended (kept : o.Kept) (updated : Mail.Updated o.mail o'.mail id none closed) :
    Moved [id] o o' [] := by
  refine ⟨Nat.le_of_eq updated.next.symm, ⟨.nil, nofun⟩, fun other away _ => ?_, nofun, ?_⟩
  · rw [updated.lookup, if_neg (by simpa using away)]
  · intro other mine _
    rw [updated.lookup]
    split
    · rfl
    · next away =>
      rcases mine with same | high
      · exact absurd (List.mem_singleton.mp same) away
      · exact kept.lookup_unminted high

/-- An operation on no request. -/
theorem moved_mail (kept : o.Kept) (mail : o'.mail = o.mail) : Moved [] o o' [] := by
  refine ⟨Nat.le_of_eq (congrArg Mail.next mail).symm, ⟨.nil, nofun⟩, fun other _ _ => ?_, nofun, ?_⟩
  · rw [mail]
  · rintro other (mine | high) _
    · cases mine
    · rw [mail]
      exact kept.lookup_unminted high

theorem Kept.moved_collect (kept : o.Kept) (low : id < o.mail.next) (waker : Waker) :
    Moved [id] o (o.collect id waker).2 [id] := by
  obtain ⟨_, _, _, _, _, updated⟩ | ⟨_, _, _, updated⟩ := kept.mail.shape.collect id
    (if o.driverWaker.any (· == waker) then none else some waker)
  · exact moved_open kept low updated
  · exact moved_open kept low updated

theorem Kept.moved_close (kept : o.Kept) (id : Nat) : Moved [id] o (o.close id) [] :=
  moved_ended kept (kept.mail.shape.close id)

/-- A request is minted and its slot opened, with what is built between them. -/
theorem Kept.moved_record (kept : o.Kept) (effect : E) (answer : Answer) :
    Moved [] o (o.mint.2.openRequest o.mail.next effect answer) [o.mail.next] ∧
      ∃ slot, (o.mint.2.openRequest o.mail.next effect answer).mail.lookup o.mail.next =
        some slot := by
  obtain ⟨minted, _, log⟩ := kept.mint
  have mail : o.mint.2.mail = o.mail.mint.2 := record_mail { o with mail := o.mail.mint.2 } _
  have built : o.mail.next ∈ beingBuilt o.mint.2.log := log ▸ List.mem_cons_self
  have absent : ∀ slot ∈ o.mint.2.mail.slots, slot.id ≠ o.mail.next := by
    rintro slot member same
    rw [mail] at member
    have opened := kept.mail.opened slot member
    have := kept.mail.numbered _ (kept.valid.opened_minted _ opened).1
    omega
  have updated := minted.mail.shape.openSlot answer.check absent
  rw [← openRequest_mail o.mint.2 o.mail.next effect answer] at updated
  have next : o.mint.2.mail.next = o.mail.next + 1 := congrArg Mail.next mail
  have opened := moved_open minted (by omega) updated
  have later := opened.next
  refine ⟨⟨by omega, opened.holds, fun other _ low => ?_, fun other member => ?_,
    fun other mine absent => ?_⟩, _, (updated.lookup _).trans (if_pos rfl)⟩
  · rw [opened.frame other (by simp; omega) (by omega), mail]
    rfl
  · obtain rfl := List.mem_singleton.mp member
    exact .inr (Nat.le_refl _)
  · apply opened.gone other _ absent
    rcases mine with mine | high
    · cases mine
    · right
      have : other ≠ o.mail.next := by simpa using absent
      omega

/-- A request polled in vain keeps the waker it was polled with, if that is not the driver's. -/
theorem Kept.collect_waits (kept : o.Kept) {slot : Slot} (found : o.mail.lookup id = some slot)
    (waits : slot.value = none) (adopted : o.driverWaker = some own) {waker : Waker}
    (foreign : waker ≠ own) :
    (o.collect id waker).2.mail.lookup id = some { slot with waker := some waker } := by
  have passed : (if o.driverWaker.any (· == waker) then none else some waker) = some waker := by
    rw [adopted]
    simp [foreign.symm]
  show (o.mail.collect id (if o.driverWaker.any (· == waker) then none else some waker)).2.lookup id
    = _
  rw [passed, (kept.mail.shape.collect_waits found waits (some waker)).2.lookup, if_pos rfl]
  rfl

/-- The slot of a request polled in vain stays open. -/
theorem Kept.collect_open (kept : o.Kept) {slot : Slot} (found : o.mail.lookup id = some slot)
    {waker : Waker} (missing : (o.collect id waker).1 = none) :
    ∃ slot, (o.collect id waker).2.mail.lookup id = some slot := by
  obtain ⟨_, v, _, _, handed, _⟩ | ⟨_, _, kept', updated⟩ := kept.mail.shape.collect id
    (if o.driverWaker.any (· == waker) then none else some waker)
  · cases handed.symm.trans missing
  · have after := updated.lookup id
    rw [if_pos rfl, found] at after
    exact ⟨_, after⟩

end

end Outbox

end SansEffort
