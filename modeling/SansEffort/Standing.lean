import SansEffort.Delivery

/-!
# The reported status

`Status` counts open slots, and a slot stays open until its future takes the reply. So a status
of `awaiting` speaks of the host's own requests exactly when some request shown waits, or no
reply accepted is still unread.
-/

namespace SansEffort

variable {σ E H V : Type}

/-- A reply was accepted, and since then its future has been neither polled nor dropped. -/
def Unread (log : List (Event E)) (id : Nat) : Prop :=
  ∃ newer older v, log = newer ++ .delivered id v :: older ∧ .dropped id ∉ newer ∧
    ∀ w, .collected id w ∉ newer

theorem unread_cons {event : Event E} {log : List (Event E)} {id : Nat} (unread : Unread log id)
    (dropped : event ≠ .dropped id) (collected : ∀ w, event ≠ .collected id w) :
    Unread (event :: log) id := by
  obtain ⟨newer, older, v, rfl, undropped, uncollected⟩ := unread
  refine ⟨event :: newer, older, v, rfl, ?_, fun w => ?_⟩
  · simp [undropped, dropped.symm]
  · simp [uncollected w, (collected w).symm]

theorem unread_of_cons {event : Event E} {log : List (Event E)} {id : Nat}
    (unread : Unread (event :: log) id) (delivered : ∀ v, event ≠ .delivered id v) :
    Unread log id ∧ event ≠ .dropped id ∧ ∀ w, event ≠ .collected id w := by
  obtain ⟨newer, older, v, whole, undropped, uncollected⟩ := unread
  cases newer with
  | nil =>
    cases whole
    exact absurd rfl (delivered v)
  | cons first newer =>
    obtain ⟨rfl, rfl⟩ := List.cons.inj whole
    refine ⟨⟨newer, older, v, rfl, ?_, fun w => ?_⟩, ?_, fun w => ?_⟩
    · exact fun member => undropped (List.mem_cons_of_mem _ member)
    · exact fun member => uncollected w (List.mem_cons_of_mem _ member)
    · exact fun same => undropped (same ▸ List.mem_cons_self)
    · exact fun same => uncollected w (same ▸ List.mem_cons_self)

/-- The unread replies are those whose requests are answered and not yet ended. -/
theorem Valid.unread_iff {log : List (Event E)} (valid : Valid log) (id : Nat) :
    Unread log id ↔ (life id log).value.isSome = true := by
  induction valid with
  | nil => simp [Unread, life, Life.value]
  | @cons event log valid allowed ih =>
    rw [life]
    obtain ⟨e, a, rfl, step⟩ | ⟨v, rfl, step⟩ | ⟨v, rfl, step⟩ | ⟨rfl, step⟩ | ⟨step, other⟩ :=
      Life.step_cases id (life id log) event
    · have fresh := valid.not_building_of_opened id allowed
      rw [fresh] at ih
      rw [step]
      refine ⟨fun unread => ?_, fun present => by cases present⟩
      exact absurd (ih.mp (unread_of_cons unread (by simp)).1) (by simp [Life.value])
    · rw [step]
      obtain ⟨a, alive, _⟩ := allowed
      refine ⟨fun _ => ?_, fun _ => ⟨[], log, v, rfl, by simp, by simp⟩⟩
      cases state : life id log <;> rw [state] at alive <;> first | rfl | cases alive
    · rw [step]
      refine ⟨fun unread => absurd rfl ((unread_of_cons unread (by simp)).2.2 v), fun present => ?_⟩
      cases state : life id log <;> rw [state] at present <;> cases present
    · rw [step]
      refine ⟨fun unread => absurd rfl (unread_of_cons unread (by simp)).2.1, fun present => ?_⟩
      cases state : life id log <;> rw [state] at present <;> cases present
    · rw [step, ← ih]
      have away : (∀ v, event ≠ .delivered id v) ∧ event ≠ .dropped id ∧
          ∀ w, event ≠ .collected id w := by
        refine ⟨fun v same => ?_, fun same => ?_, fun w same => ?_⟩ <;>
          exact other (by rw [same]; rfl)
      exact ⟨fun unread => (unread_of_cons unread away.1).1,
        fun unread => unread_cons unread away.2.1 away.2.2⟩

/-- Slots are open for the live requests. -/
theorem Mail.Keeps.opened_pos_iff {m : Mail} {log : List (Event E)} (keeps : m.Keeps log) :
    0 < m.opened ↔ ∃ id, (life id log).content.isSome = true := by
  have content : ∀ id, (life id log).content.isSome = true ↔ (m.lookup id).isSome = true := by
    intro id
    rw [← keeps.slots id, Option.isSome_map]
  simp only [content]
  rw [keeps.shape.counted, List.length_pos_iff_exists_mem]
  constructor
  · rintro ⟨slot, member⟩
    exact ⟨slot.id, (lookup_isSome_iff m slot.id).mpr (List.mem_map_of_mem member)⟩
  · rintro ⟨id, found⟩
    obtain ⟨slot, member, _⟩ := List.mem_map.mp ((lookup_isSome_iff m id).mp found)
    exact ⟨slot, member⟩

namespace Hosted

/-- A request shown to the host is neither answered nor closed. -/
def Outstanding (split : E → V × Option Pending) (s : Hosted σ E H V) : Prop :=
  ∃ id ∈ shownIds split s.outbox.log,
    id ∉ (accepted s.heard).map Prod.fst ∧ id ∉ closedIds s.heard

/-- What the status must say of a routine that has not completed. -/
def StatusTells (split : E → V × Option Pending) (s : Hosted σ E H V) : Prop :=
  (s.Outstanding split → s.machine.status = .awaiting) ∧
    (¬ s.Outstanding split → s.machine.status = .idle)

theorem not_tells {split : E → V × Option Pending} {s : Hosted σ E H V}
    (quiet : ¬ s.Outstanding split) (status : s.machine.status = .awaiting) :
    ¬ StatusTells split s := by
  intro tells
  have idle := tells.2 quiet
  rw [status] at idle
  cases idle

/-- Between calls the requests outstanding are those whose futures wait. -/
theorem Sound.outstanding_iff {split : E → V × Option Pending} {driver : Nat}
    {s : Hosted σ E H V} (sound : Sound split driver s)
    (lawful : Lawful split driver s.outbox.log) (drained : drains s.outbox.log ≠ []) :
    s.Outstanding split ↔ ∃ id a, life id s.outbox.log = .waiting a := by
  have valid := sound.kept.valid
  unfold Outstanding
  rw [sound.accepted, sound.closed]
  constructor
  · rintro ⟨id, shown, unanswered, unclosed⟩
    obtain ⟨p, member, rfl⟩ := List.mem_map.mp shown
    obtain ⟨a, _, waits, _⟩ := sound.waits lawful member (not_or.mpr ⟨unanswered, unclosed⟩)
    exact ⟨p.id, a, waits⟩
  · rintro ⟨id, a, waits⟩
    have opened := List.mem_map_of_mem (f := Prod.fst)
      (life_answer_opened id s.outbox.log a (by rw [waits]; rfl))
    refine ⟨id, (sound.flushed drained).2 id opened, fun answered => ?_, fun closed => ?_⟩
    · have replied := (valid.replied_iff id).mpr answered
      rw [waits] at replied
      cases replied
    · rw [valid.listed_abandoned id closed] at waits
      cases waits

/-- A call that returned `Ok` reported how many slots its poll left open. -/
theorem Sound.ok_status {split : E → V × Option Pending} {driver : Nat} {s : Hosted σ E H V}
    (sound : Sound split driver s) (lawful : Lawful split driver s.outbox.log)
    (r : Routine σ E H) {c : Call} {y : Yield (Shown V)} {m' : Machine σ E H}
    (returned : s.machine.call r split c = some (.ok y, m')) :
    drains m'.driver.outbox.log ≠ [] ∧
      ∃ poll, m'.status = Status.classify poll m'.driver.outbox.mail.opened := by
  have polled := sound.call_ok lawful r (fun id value _ => sound.prompt id value) returned
  obtain ⟨d, after, yielded, ⟨poll, middle, kept, _, _, _, same, status, _⟩, driver'⟩ := polled
  unfold Machine.status
  rw [driver']
  refine ⟨?_, poll, ?_⟩
  · rw [same, kept.drain.2]
    exact List.cons_ne_nil _ _
  · rw [status, same]
    rfl

/-- After a call that returned `Ok` and did not complete the routine, the status tells the
truth exactly when a request shown is outstanding or no accepted reply is unread. -/
theorem status_tells_iff (p : Program σ E) (split : E → V × Option Pending) (driver : Nat)
    (waker : Waker) (make : Prog E σ) (acts : List (HostAct Call E)) (s : Hosted σ E H V)
    (ran : Run p.routine split driver waker make acts s) (quiet : ∀ a ∈ acts, a.isQuiet = true)
    (c : Call) (y : Yield (Shown V)) (m' : Machine σ E H)
    (returned : s.machine.call p.routine split c = some (.ok y, m'))
    (lawful : Lawful split driver m'.driver.outbox.log) (running : m'.status ≠ .complete) :
    StatusTells split ⟨m', (c, .ok y) :: s.heard⟩ ↔
      Outstanding split ⟨m', (c, .ok y) :: s.heard⟩ ∨
        ∀ id, ¬ Unread m'.driver.outbox.log id := by
  have before := lawful.of_suffix (call_later p.routine split ran.kept returned).log
  have sound : Sound split driver s := ran.sound p.routine_private quiet before
  have stepped : s.step p.routine split (.call c) = some ⟨m', (c, .ok y) :: s.heard⟩ := by
    simp only [Hosted.step, returned, Option.map_some]
  have after := sound.step p.routine_private rfl stepped lawful
  have valid := after.kept.valid
  obtain ⟨drained, poll, status⟩ := sound.ok_status before p.routine returned
  have outstanding := after.outstanding_iff lawful drained
  -- an open slot is a request waited for, or a reply not read
  have slots : 0 < m'.driver.outbox.mail.opened ↔
      Outstanding split ⟨m', (c, .ok y) :: s.heard⟩ ∨ ∃ id, Unread m'.driver.outbox.log id := by
    rw [after.kept.mail.opened_pos_iff, outstanding, ← exists_or]
    refine exists_congr fun id => ?_
    rw [valid.unread_iff id]
    show (life id m'.driver.outbox.log).content.isSome = true ↔
      (∃ a, life id m'.driver.outbox.log = .waiting a) ∨ _
    cases life id m'.driver.outbox.log <;> simp [Life.content, Life.value]
  have pending : poll = .pending := by
    cases poll with
    | pending => rfl
    | ready => exact absurd status running
  -- after a poll the status is read off the slots
  have reported : m'.status = .awaiting ↔ 0 < m'.driver.outbox.mail.opened := by
    rw [status, pending, Status.classify]
    split <;> simp_all
  have idle : m'.status = .idle ↔ ¬ 0 < m'.driver.outbox.mail.opened := by
    rw [status, pending, Status.classify]
    split <;> simp_all
  rw [← not_exists]
  unfold StatusTells
  rw [reported, idle, slots]
  constructor
  · rintro ⟨_, quiet⟩
    by_cases waits : Outstanding split ⟨m', (c, .ok y) :: s.heard⟩
    · exact .inl waits
    · exact .inr fun unread => quiet waits (.inr unread)
  · rintro (waits | read)
    · exact ⟨fun _ => .inl waits, fun quiet => absurd waits quiet⟩
    · exact ⟨.inl, fun quiet => not_or.mpr ⟨quiet, read⟩⟩

end Hosted

/-! ### A routine that does not read its reply -/

namespace Holder

open Echo (Effect View State)

/-- Ask, poll the answer once, and wait for something else from then on: a read raced by
reference, say. -/
def program : Program State Effect where
  poll
    | .start, waker =>
      .ask (anyAnswer .str) (fun reply => .ret (some (.ask reply))) fun
        | some id => .collect id waker fun _ => .ret (some (.pending, .asked id))
        | none => .ret none
    | state, _ => .ret (some (.pending, state))
  drop
    | .asked id => .close id (.ret (some ()))
    | _ => .ret (some ())
  wake state _ := some state

/-- The one request is answered and nothing is outstanding, but the status is `awaiting`. -/
theorem status_awaiting_nothing :
    ∃ (s : Hosted State Effect Unit View) (y : Yield (Shown View)) (m' : Machine State Effect Unit),
      Hosted.Run program.routine Effect.split 1 0 (.ret .start) [.call .resume] s ∧
      s.machine.call program.routine Effect.split (.reply 1 (.str "hi")) = some (.ok y, m') ∧
      Lawful Effect.split 1 m'.driver.outbox.log ∧ m'.status = .awaiting ∧
      ¬ Hosted.Outstanding Effect.split ⟨m', (.reply 1 (.str "hi"), .ok y) :: s.heard⟩ ∧
      ¬ Hosted.StatusTells Effect.split ⟨m', (.reply 1 (.str "hi"), .ok y) :: s.heard⟩ := by
  refine ⟨_, _, _, rfl, rfl, Echo.lawful_of_all rfl, rfl, ?quiet, Hosted.not_tells ?quiet rfl⟩
  rintro ⟨id, shown, unanswered, _⟩
  exact unanswered shown

end Holder

/-- An `Echo` that waits: its request is outstanding, and the status says so. -/
theorem Echo.status_tells_asked :
    ∃ (y : Yield (Shown View)) (m' : Machine State Effect Unit),
      (Hosted.new 1 0 (.ret .start) : Hosted State Effect Unit View).machine.call
        program.routine Effect.split .resume = some (.ok y, m') ∧
      Hosted.StatusTells Effect.split ⟨m', [(.resume, .ok y)]⟩ := by
  refine ⟨_, _, rfl, ?_⟩
  refine (Hosted.status_tells_iff program Effect.split 1 0 (.ret .start) [] _ rfl (by simp) .resume
    _ _ rfl (lawful_of_all rfl) ?running).mpr (.inl ⟨1, ?_, ?_⟩)
  case running =>
    intro same
    cases (show Status.awaiting = .complete from same)
  · exact List.mem_cons_self
  · exact ⟨nofun, nofun⟩

end SansEffort
