import SansEffort.Driver

/-!
# Wakes from other threads

The flag of a driver's waker (`driver/wake.rs`) with every step on its own. A wake is a swap of the
flag and, if it was down, a call of the hook some time later; the driver puts the flag up when a
reply is about to wake somebody else's waker, and down when a poll begins (`driver/stepper.rs`).
Other threads may do anything between any two of these. The flag is sequentially consistent.
-/

namespace SansEffort

namespace Wakeup

variable {H : Type}

/-- The first half of a wake: put the flag up. Whether it was up. -/
def swap (w : Wakeup H) : Bool × Wakeup H := (w.woken, { w with woken := true })

/-- A wake that nothing comes between is the swap and then the hook. -/
theorem wakeUp_eq (w : Wakeup H) :
    w.wakeUp = (if w.swap.1 then none else w.swap.2.hook, w.swap.2) := rfl

end Wakeup

namespace Racing

/-- What the driver's own thread is at. -/
inductive Phase
  | idle
  /-- In a reply, between `hold` and the poll. -/
  | held
  | polling
  | complete
  deriving DecidableEq

inductive Event
  /-- A thread's wake swapped the flag, and saw it up or down. -/
  | swapped (thread : Nat) (saw : Bool)
  /-- It called the hook. -/
  | told (thread : Nat)
  | held
  | cleared
  deriving DecidableEq

/-- `telling`: the threads that saw the flag down and have not called the hook yet. -/
structure State (H : Type) where
  wakeup : Wakeup H
  phase : Phase
  telling : List Nat
  log : List Event

variable {H : Type}

/-- A driver whose hook has just been installed; `up` if it was woken before it had one. -/
def start (up : Bool) (hook : H) : State H := ⟨⟨up, some hook⟩, .idle, [], []⟩

inductive Act (H : Type)
  | swap (thread : Nat)
  | tell (thread : Nat)
  | hold
  | clear
  | finish (poll : Poll)
  | onWake (hook : H)

/-- A poll may follow a hold that another did not, when the waker woken between them unwound. -/
def step (s : State H) : Act H → Option (State H)
  | .swap thread =>
    if thread ∈ s.telling then none
    else
      let (saw, wakeup) := s.wakeup.swap
      some { s with
        wakeup, telling := if saw then s.telling else thread :: s.telling,
        log := .swapped thread saw :: s.log }
  | .tell thread =>
    if thread ∈ s.telling then
      let telling := s.telling.erase thread
      match s.wakeup.hook with
      | some _ => some { s with telling, log := .told thread :: s.log }
      | none => some { s with telling }
    else none
  | .hold =>
    if s.phase = .idle ∨ s.phase = .held then
      some { s with wakeup := s.wakeup.hold, phase := .held, log := .held :: s.log }
    else none
  | .clear =>
    if s.phase = .idle ∨ s.phase = .held then
      some { s with wakeup := s.wakeup.clear, phase := .polling, log := .cleared :: s.log }
    else none
  | .finish poll =>
    if s.phase = .polling then
      some { s with phase := match poll with
        | .pending => .idle
        | .ready => .complete }
    else none
  | .onWake hook => some { s with wakeup := s.wakeup.setHook hook }

/-- What happened since the last poll began. -/
def sinceClear (log : List Event) : List Event := log.takeWhile (· != .cleared)

@[simp] theorem sinceClear_cleared (log : List Event) : sinceClear (.cleared :: log) = [] := by
  simp [sinceClear]

@[simp] theorem sinceClear_cons {event : Event} (other : event ≠ .cleared) (log : List Event) :
    sinceClear (event :: log) = event :: sinceClear log := by
  simp [sinceClear, other]

/-! ### The flag -/

/-- A driver that was woken before it had a hook is told of nothing until it is polled. -/
def Heard (up : Bool) (log : List Event) : Prop := up = false ∨ .cleared ∈ log

/-- While the flag is up, the hook was called since the poll began, or somebody is to call it, or a
poll is next. -/
structure Known (up : Bool) (s : State H) : Prop where
  hooked : ∃ hook, s.wakeup.hook = some hook
  raised : Heard up s.log → s.wakeup.woken = true → s.phase ≠ .held → s.telling = [] →
    ∃ thread, .told thread ∈ sinceClear s.log
  swapped : ∀ thread saw, .swapped thread saw ∈ sinceClear s.log → s.wakeup.woken = true
  held : .held ∈ sinceClear s.log → s.phase = .held

theorem Heard.of_cons {up : Bool} {event : Event} {log : List Event} (other : event ≠ .cleared)
    (heard : Heard up (event :: log)) : Heard up log := by
  rcases heard with down | cleared
  · exact .inl down
  · exact .inr ((List.mem_cons.mp cleared).resolve_left other.symm)

theorem known_start (up : Bool) (hook : H) : Known up (start up hook) where
  hooked := ⟨hook, rfl⟩
  raised heard woken := by
    rcases heard with rfl | cleared
    · cases woken
    · cases cleared
  swapped _ _ member := by cases member
  held member := by cases member

theorem Known.swap {up : Bool} {s next : State H} {thread : Nat} (known : Known up s)
    (stepped : step s (.swap thread) = some next) : Known up next := by
  simp only [step] at stepped
  split at stepped
  · cases stepped
  · cases stepped
    have other : ∀ saw, Event.swapped thread saw ≠ .cleared := by
      intro saw same
      cases same
    refine ⟨known.hooked, fun heard _ phase telling => ?_, fun _ _ _ => rfl, fun member => ?_⟩
    · rw [sinceClear_cons (other _)]
      cases saw : s.wakeup.woken with
      | false => simp [Wakeup.swap, saw] at telling
      | true =>
        -- it was up before, and whoever put it up has been heard
        simp only [Wakeup.swap, saw, if_true] at telling
        obtain ⟨thread, told⟩ := known.raised (heard.of_cons (other _)) saw phase telling
        exact ⟨thread, List.mem_cons_of_mem _ told⟩
    · rw [sinceClear_cons (other _)] at member
      apply known.held
      simpa using member

theorem Known.tell {up : Bool} {s next : State H} {thread : Nat} (known : Known up s)
    (stepped : step s (.tell thread) = some next) : Known up next := by
  obtain ⟨hook, installed⟩ := known.hooked
  simp only [step, installed] at stepped
  split at stepped
  · cases stepped
    have since : sinceClear (.told thread :: s.log) = .told thread :: sinceClear s.log := by simp
    refine ⟨known.hooked, fun _ _ _ _ => ⟨thread, ?_⟩, fun other saw member => ?_, fun member => ?_⟩
    · rw [since]
      exact List.mem_cons_self
    · rw [since] at member
      apply known.swapped other saw
      simpa using member
    · rw [since] at member
      apply known.held
      simpa using member
  · cases stepped

theorem Known.step {up : Bool} {s next : State H} (act : Act H) (known : Known up s)
    (stepped : step s act = some next) : Known up next := by
  cases act with
  | swap thread => exact known.swap stepped
  | tell thread => exact known.tell stepped
  | hold =>
    simp only [Racing.step] at stepped
    split at stepped
    · cases stepped
      exact ⟨known.hooked, fun _ _ phase => absurd rfl phase, fun _ _ _ => rfl, fun _ => rfl⟩
    · cases stepped
  | clear =>
    simp only [Racing.step] at stepped
    split at stepped
    · cases stepped
      -- nothing has happened since
      refine ⟨known.hooked, fun _ woken => ?_, fun _ _ member => ?_, fun member => ?_⟩
      · cases woken
      · simp at member
      · simp at member
    · cases stepped
  | finish poll =>
    simp only [Racing.step] at stepped
    split at stepped
    · next polling =>
      cases stepped
      refine ⟨known.hooked, fun heard woken _ => known.raised heard woken ?_, known.swapped, ?_⟩
      · rw [polling]
        decide
      · intro member
        have held := known.held member
        rw [polling] at held
        cases held
    · cases stepped
  | onWake hook =>
    cases stepped
    exact ⟨⟨hook, rfl⟩, known.raised, known.swapped, known.held⟩

theorem known_run {up : Bool} {hook : H} {acts : List (Act H)} {s : State H}
    (ran : Transition.run step (start up hook) acts = some s) : Known up s :=
  Transition.run_invariant (Known up) (fun _ act _ known stepped => known.step act stepped)
    (known_start up hook) ran

/-- A hold is over only when a poll has begun. -/
theorem Known.poll_follows {up : Bool} {s : State H} (known : Known up s)
    (between : s.phase ≠ .held) {later earlier : List Event} (split : s.log = later ++ .held :: earlier) :
    .cleared ∈ later := by
  by_contra absent
  apply between
  apply known.held
  rw [split, sinceClear, List.takeWhile_append_of_pos]
  · simp
  · intro event member
    have other : event ≠ .cleared := by
      rintro rfl
      exact absent member
    simp [other]

/-- Whatever the threads do: once every wake has called the hook that is to, and no reply is about
to poll, a flag that is up was announced since the last poll began, and so was every wake since;
what was woken during a hold has been polled. -/
theorem racing_wakes_are_announced (up : Bool) (hook : H) (acts : List (Act H)) (s : State H)
    (ran : Transition.run step (start up hook) acts = some s) (heard : Heard up s.log)
    (nobody : s.telling = []) (between : s.phase ≠ .held) :
    (s.wakeup.woken = true → ∃ thread, .told thread ∈ sinceClear s.log) ∧
    (∀ thread saw, .swapped thread saw ∈ sinceClear s.log →
      ∃ other, .told other ∈ sinceClear s.log) ∧
    ∀ thread saw later during earlier,
      s.log = later ++ .swapped thread saw :: (during ++ .held :: earlier) →
      .cleared ∉ during → .cleared ∈ later := by
  have known := known_run ran
  have announced : s.wakeup.woken = true → ∃ thread, .told thread ∈ sinceClear s.log :=
    fun woken => known.raised heard woken between nobody
  refine ⟨announced, fun thread saw swapped => announced (known.swapped thread saw swapped), ?_⟩
  intro thread saw later during earlier split unpolled
  have since : s.log = (later ++ .swapped thread saw :: during) ++ .held :: earlier := by
    simpa using split
  have follows := known.poll_follows between since
  -- the poll is none of what happened during the hold
  simpa [unpolled] using follows

/-- The first thread is overtaken by a poll before it calls the hook; the second wakes the driver
during a hold; the fourth finds the flag up. -/
theorem racing_wakes_are_announced_overtaken :
    ∃ s, Transition.run step (start false ())
        [.clear, .swap 1, .finish .pending, .hold, .swap 2, .clear, .swap 3, .tell 1, .tell 3,
          .swap 4] = some s ∧
      s.wakeup.woken = true ∧ ∃ thread, .told thread ∈ sinceClear s.log := by
  refine ⟨_, rfl, rfl, ?_⟩
  exact (racing_wakes_are_announced false () [.clear, .swap 1, .finish .pending, .hold, .swap 2,
    .clear, .swap 3, .tell 1, .tell 3, .swap 4] _ rfl (.inl rfl) rfl (by decide)).1 rfl

end Racing

end SansEffort
