import SansEffort.Protocol.Hearing

/-!
# A call at a time

A host with one worker makes a call and heeds its output at once: nothing is ever in flight but
within the call. What is pending then, who is where, and what became of the machine that was called.
-/

namespace SansEffort.Protocol

variable {k : Instance}

namespace Host

variable {s s' : Host}

/-- What a call on the first worker puts out. -/
def outcome (k : Instance) (s : Host) (e : Event) (m : Machine) : Output :=
  output (s.world.owned k e 0 m) e.target 0 ((s.world.attempt k e).failed e.target) m

/-- The call, made and heeded. -/
def served (k : Instance) (s : Host) (e : Event) (m : Machine) : Host :=
  (s.called k e 0 m).returned k e.target (s.outcome k e m)

theorem called_outcome (k : Instance) (s : Host) (e : Event) (m : Machine) :
    (s.called k e 0 m).inFlight.lookup e.target = some (s.outcome k e m) := Finmap.lookup_insert _

section

variable {e : Event} {m : Machine}

theorem outcome_woke (calm : ¬ (s.world.attempt k e).failed e.target) :
    (s.outcome k e m).woke = (s.world.owned k e 0 m).woke := by
  unfold outcome
  rw [output_woke, if_neg calm]

theorem outcome_effects (calm : ¬ (s.world.attempt k e).failed e.target) :
    (s.outcome k e m).effects = (s.world.owned k e 0 m).effects := by
  unfold outcome
  rw [output_effects, if_neg calm]

theorem outcome_closed (calm : ¬ (s.world.attempt k e).failed e.target) :
    (s.outcome k e m).closed = (s.world.owned k e 0 m).closed := by
  unfold outcome
  rw [output_closed, if_neg calm]

/-- The call can be made if nothing is in flight and the machine is the worker's. -/
theorem step_call (workers : 1 ≤ k.workers) (found : s.machines[e.target]? = some m)
    (pending : e ∈ s.pending) (running : s.verdict = .running) (idle : s.inFlight = ∅)
    (right : ¬ wrong m 0) : s.step k (.call e 0) = some (s.called k e 0 m) := by
  have free : s.inFlight.keys = ∅ := by
    rw [idle]
    rfl
  have able : 0 ∈ s.idleWorkers k := by
    unfold idleWorkers
    rw [free]
    simp
    omega
  show s.call k e 0 = _
  unfold call
  rw [found]
  dsimp only
  rw [if_pos ⟨pending, able, running, by simp [free], by rw [free]; exact workers,
    fun _ => right⟩, if_neg right]

theorem step_ret (k : Instance) (s : Host) (e : Event) (m : Machine) :
    (s.called k e 0 m).step k (.ret e.target) = some (s.served k e m) := by
  show (s.called k e 0 m).ret k e.target = _
  unfold ret
  rw [called_outcome]
  rfl

theorem run_served (workers : 1 ≤ k.workers) (found : s.machines[e.target]? = some m)
    (pending : e ∈ s.pending) (running : s.verdict = .running) (idle : s.inFlight = ∅)
    (right : ¬ wrong m 0) :
    Transition.run (Host.step k) s [.call e 0, .ret e.target] = some (s.served k e m) := by
  simp only [Transition.run_cons, Transition.run_nil,
    step_call workers found pending running idle right, Option.bind_some, step_ret]

/-- A machine that waits is to be resumed for no reason. -/
def spurred (s : Host) (h : Nat) : Host :=
  { s with
    pending := s.pending ∪ {.resume h}
    spuriousLeft := s.spuriousLeft - 1
    steps := tick s.steps }

theorem step_spurious {h : Nat} (found : s.machines[h]? = some m) (waits : m.waitingIn)
    (running : s.verdict = .running) (idle : s.inFlight = ∅) (left : 0 < s.spuriousLeft) :
    s.step k (.spurious h) = some (s.spurred h) := by
  show s.spurious h = _
  unfold spurious
  rw [found]
  exact if_pos ⟨waits, by simp [idle], running, left⟩

/-! ### What it leaves the host -/

theorem served_inFlight (idle : s.inFlight = ∅) : (s.served k e m).inFlight = ∅ := by
  show (s.inFlight.insert e.target _).erase e.target = ∅
  rw [idle]
  apply Finmap.ext_lookup
  intro x
  by_cases same : x = e.target
  · rw [same, Finmap.lookup_erase, Finmap.lookup_empty]
  · rw [Finmap.lookup_erase_ne same, Finmap.lookup_insert_of_ne _ same]

theorem mem_served_resume (correct : k.Correct) (calm : ¬ (s.world.attempt k e).failed e.target)
    {g : Nat} : .resume g ∈ (s.served k e m).pending ↔
      (.resume g ∈ s.pending ∧ e ≠ .resume g) ∨ g ∈ (s.world.owned k e 0 m).woke ∨
        g ∈ spawnedIn (s.world.owned k e 0 m).effects := by
  show _ ∈ (s.pending.erase e ∪ _ ∪ _ ∪ _ ∪ _) \ _ ↔ _
  rw [correct.heedsWoke, correct.dropsClosed, correct.waitsForWoke, outcome_woke calm,
    outcome_effects calm]
  simp only [Finset.mem_sdiff, Finset.mem_union, Finset.mem_erase, Finset.mem_image, if_true]
  constructor
  · rintro ⟨(((⟨other, before⟩ | ⟨h, told, same⟩) | polled) | ⟨h, told, same⟩) | ⟨_, _, same⟩, _⟩
    · exact .inl ⟨before, other.symm⟩
    · exact .inr (.inl (Event.resume.inj same ▸ told))
    · simp at polled
    · exact .inr (.inr (Event.resume.inj same ▸ told))
    · cases same
  · rintro (⟨before, other⟩ | told | told)
    · exact ⟨.inl (.inl (.inl (.inl ⟨other.symm, before⟩))), by simp⟩
    · exact ⟨.inl (.inl (.inl (.inr ⟨g, told, rfl⟩))), by simp⟩
    · exact ⟨.inl (.inr ⟨g, told, rfl⟩), by simp⟩

theorem mem_served_reply (correct : k.Correct) (calm : ¬ (s.world.attempt k e).failed e.target)
    {g id : Nat} : .reply g id ∈ (s.served k e m).pending ↔
      ((.reply g id ∈ s.pending ∧ e ≠ .reply g id) ∨
        g = e.target ∧ id ∈ askedIn (s.world.owned k e 0 m).effects) ∧
      ¬ (g = e.target ∧ id ∈ (s.world.owned k e 0 m).closed) := by
  have before : .reply g id ∈ (s.called k e 0 m).pending ↔
      .reply g id ∈ s.pending ∧ e ≠ .reply g id :=
    Finset.mem_erase.trans (and_comm.trans (and_congr_right fun _ => ne_comm))
  unfold served
  rw [mem_returned_reply correct, outcome_closed calm, outcome_effects calm, before]

theorem served_wakes (calm : ¬ (s.world.attempt k e).failed e.target) :
    (s.served k e m).wakes = s.wakes := by
  unfold served returned
  dsimp only
  rw [called_wakes, if_neg calm]

theorem Judging.served (correct : k.Correct) (short : k.Short) (workers : 1 ≤ k.workers)
    (judging : s.Judging k) (found : s.machines[e.target]? = some m) (pending : e ∈ s.pending)
    (running : s.verdict = .running) (idle : s.inFlight = ∅) (right : ¬ wrong m 0) :
    (s.served k e m).Judging k :=
  (judging.step correct short (step_call workers found pending running idle right)).step correct
    short (step_ret k s e m)

theorem Live.served (correct : k.Correct) (workers : 1 ≤ k.workers) (judging : s.Judging k)
    (live : s.Live) (found : s.machines[e.target]? = some m) (pending : e ∈ s.pending)
    (running : s.verdict = .running) (idle : s.inFlight = ∅) (right : ¬ wrong m 0)
    (calm : ¬ (s.world.attempt k e).failed e.target) : (s.served k e m).Live := by
  have called := step_call workers found pending running idle right
  have sound := judging.awake.sound
  exact step_live correct (sound.step called) (step_owing correct sound judging.owing called)
    (step_live correct sound judging.owing live (a := .call e 0) (fun failed => absurd failed calm)
      called) (a := .ret e.target) trivial (step_ret k s e m)

/-! ### What it leaves the machines -/

/-- What a call has made of its machine. -/
structure Ran (k : Instance) (s : Host) (e : Event) (m n : Machine) : Prop where
  there : (s.world.owned k e 0 m).machines[e.target]? = some n
  begun : n.status ≠ .notStarted
  stays : n.status ≠ .gone
  older : m.nextId ≤ n.nextId
  asked : ∀ id ∈ askedIn (s.world.owned k e 0 m).effects, m.nextId ≤ id ∧ id < n.nextId
  closed : ∀ id ∈ (s.world.owned k e 0 m).closed, id < n.nextId
  owner : n.owner = m.owner ∨ n.owner = 0
  owned : n.pinned = true → n.owner ≠ -1

theorem ran_of_found (sound : s.world.Sound k) (found : s.machines[e.target]? = some m)
    (stays : m.status ≠ .gone) (begins : m.status ≠ .notStarted ∨ ∃ h, e = .resume h)
    (calm : ¬ (s.world.attempt k e).failed e.target) : ∃ n, s.Ran k e m n := by
  have self := sound.machines m (List.mem_of_getElem? found)
  obtain ⟨a, ran, heard⟩ := World.heard_attempt (k := k) (w := s.world) found self rfl rfl
  obtain ⟨a', ran', begun⟩ := World.begun_attempt (k := k) (w := s.world) found begins
  obtain rfl := Option.some.inj (ran.symm.trans ran')
  obtain ⟨a', ran', left⟩ := World.attempt_account (k := k) (w := s.world) found
    (fun a => a.machine.status ≠ .gone)
    (fun a entry => by cases entry <;> first | exact stays | simp)
    (fun n closed asked a running _ turn => by cases turn <;> simp [running])
  obtain rfl := Option.some.inj (ran.symm.trans ran')
  obtain ⟨n, there, owner, ⟨failed, _⟩ | ⟨_, _, closed, asked, same⟩⟩ :=
    World.owned_self (k := k) 0 m ran
  · exact absurd failed calm
  have status : n.status = a.machine.status := by
    have := congrArg Machine.status same
    exact this
  have nextId : n.nextId = a.machine.nextId := by
    have := congrArg Machine.nextId same
    exact this
  refine ⟨n, there, status ▸ begun, status ▸ left, nextId ▸ heard.older, fun id member => ?_,
    fun id member => ?_, owner.imp_left (·.trans heard.place.2),
    World.owned_owner ran heard calm there⟩
  · rw [asked] at member
    rw [nextId]
    exact heard.asked id member
  · rw [closed] at member
    rw [nextId]
    exact heard.closed id member

theorem outcome_status {n : Machine} (ran : s.Ran k e m n) : (s.outcome k e m).status = n.status := by
  show (((s.world.owned k e 0 m).machines[e.target]?).getD m).status = _
  rw [ran.there]
  rfl

/-- The machine that was called is freed if it has completed. -/
theorem served_self {n : Machine} (ran : s.Ran k e m n) :
    (s.served k e m).machines[e.target]? =
      some (if n.status = .complete then { n with status := .gone } else n) := by
  show (retire (s.world.owned k e 0 m).machines e.target (s.outcome k e m))[e.target]? = _
  unfold retire
  dsimp only
  rw [outcome_status ran]
  by_cases complete : n.status = .complete
  · rw [if_pos (.inl complete), if_pos complete, List.getElem?_modify, ran.there]
    exact congrArg some (if_pos rfl)
  · rw [if_neg (not_or.mpr ⟨complete, ran.stays⟩), if_neg complete, ran.there]

/-- Another machine afterwards was there before, or is a child. -/
theorem of_served {g : Nat} {m' : Machine} (there : (s.served k e m).machines[g]? = some m')
    (away : g ≠ e.target) : (∃ before, s.machines[g]? = some before ∧ m'.bare = before.bare) ∨
      ∃ i child, g = s.machines.length + i ∧ (s.world.attempt k e).children[i]? = some child ∧
        m'.bare = fresh k child.1 child.2 := by
  have there : (retire (s.world.owned k e 0 m).machines e.target (s.outcome k e m))[g]? = some m' :=
    there
  have same : (s.world.owned k e 0 m).machines[g]? = some m' := by
    obtain before | ⟨here, _⟩ := of_retire there
    · exact before
    · exact absurd here away
  rcases of_called same with called | ⟨_, other⟩ | ⟨_, child⟩
  · exact absurd called away
  · exact .inl other
  · exact .inr child

/-- No machine is taken away. -/
theorem served_length (k : Instance) (s : Host) (e : Event) (m : Machine)
    (calm : ¬ (s.world.attempt k e).failed e.target) :
    (s.served k e m).machines.length =
      s.machines.length + (s.world.attempt k e).children.length := by
  have attempted : (s.world.attempt k e).machines.length = s.machines.length :=
    (World.only_attempt (k := k) s.world e).length
  have owned : (s.world.owned k e 0 m).machines.length =
      s.machines.length + (s.world.attempt k e).children.length := by
    unfold World.owned World.conclude
    rw [(World.only_own _ e.target 0 m).length, if_neg calm, World.length_register, attempted]
  exact (length_retire _ _ _).trans owned

/-- The call uses up work, or it says nothing. -/
theorem served_spends {n : Machine} {load : String → Nat} (loads : Loads k load) (sound : s.Sound k)
    (ran : s.Ran k e m n) (calm : ¬ (s.world.attempt k e).failed e.target) :
    (s.served k e m).work k load < s.work k load ∨
      (s.served k e m).work k load = s.work k load ∧ (s.outcome k e m).effects = [] ∧
        (s.outcome k e m).woke = ∅ := by
  have retired : (s.served k e m).work k load = (s.called k e 0 m).work k load :=
    work_retire _ ran.there (outcome_status ran).symm
  have ended : (s.called k e 0 m).work k load ≤ (s.world.attempt k e).work k load :=
    World.work_owned loads sound.world e 0 m
  have begun : s.world.work k load = s.work k load := rfl
  rcases World.attempt_spends load sound.world e with less | ⟨same, woke, effects, _⟩
  · exact .inl (by omega)
  · rcases Nat.lt_or_eq_of_le (ended.trans_eq (same.trans begun)) with less | still
    · exact .inl (by omega)
    · refine .inr ⟨retired.trans still, ?_, ?_⟩
      · rw [outcome_effects calm]
        unfold World.owned World.conclude
        rw [if_neg calm, World.own_effects, World.effects_register_nil effects]
      · rw [outcome_woke calm]
        unfold World.owned World.conclude
        rw [if_neg calm, World.own_woke, World.woke_register, woke]
        rfl

/-- To resume a machine that is gone uses the event up, and nothing else comes of it. -/
theorem served_gone (correct : k.Correct) {h : Nat} (found : s.machines[h]? = some m)
    (gone : m.status = .gone) (owned : m.pinned = true → m.owner ≠ -1) :
    (s.served k (.resume h) m).pending = s.pending.erase (.resume h) ∧
      (s.served k (.resume h) m).machines = s.machines ∧
      (s.served k (.resume h) m).wakes = s.wakes := by
  have same : s.world.attempt k (.resume h) = s.world := World.attempt_gone found gone
  have calm : ¬ (s.world.attempt k (.resume h)).failed (Event.resume h).target := by
    rw [same, World.failed_iff]
    rintro ⟨n, there, panicking⟩
    obtain rfl := Option.some.inj (found.symm.trans there)
    cases gone.symm.trans panicking
  -- it is registered with no children, and has its owner
  have after : s.world.owned k (.resume h) 0 m = s.world := by
    have registered : s.world.register k = s.world := by
      unfold World.register world
      simp
    unfold World.owned World.conclude
    rw [if_neg calm, same, registered]
    exact if_neg fun ⟨pinned, free⟩ => owned pinned free
  refine ⟨?_, ?_, served_wakes calm⟩
  · ext e
    rw [Finset.mem_erase]
    cases e with
    | resume g =>
      rw [mem_served_resume correct calm, after]
      simp [world, spawnedIn, and_comm, eq_comm]
    | reply g id =>
      rw [mem_served_reply correct calm, after]
      simp [world, askedIn]
  · have status : (s.outcome k (.resume h) m).status = .gone := by
      show (((s.world.owned k (.resume h) 0 m).machines[h]?).getD m).status = _
      rw [after, show s.world.machines[h]? = some m from found]
      exact gone
    have there : (s.called k (.resume h) 0 m).machines = s.machines :=
      congrArg World.machines after
    show retire (s.called k (.resume h) 0 m).machines h _ = _
    rw [there]
    unfold retire
    dsimp only
    rw [status, if_pos (.inr rfl)]
    apply List.ext_getElem?
    intro g
    rw [List.getElem?_modify]
    by_cases here : h = g
    · subst here
      rw [found]
      simp [← gone]
    · cases s.machines[g]? <;> simp [here]

/-- With nothing pending but resumes of machines that are gone, the host gets to its verdict. -/
theorem run_judged (correct : k.Correct) (workers : 1 ≤ k.workers) (running : s.verdict = .running)
    (idle : s.inFlight = ∅) (wakes : s.wakes = ∅)
    (left : ∀ e ∈ s.pending, ∃ h m, e = .resume h ∧ s.machines[h]? = some m ∧ m.status = .gone ∧
      (m.pinned = true → m.owner ≠ -1) ∧ ¬ wrong m 0) :
    ∃ actions s', Transition.run (Host.step k) s actions = some s' ∧ s'.machines = s.machines ∧
      s'.verdict ≠ .running ∧ (s'.verdict = .ended ↔ s.allGone) := by
  generalize count : s.pending.card = n
  induction n generalizing s with
  | zero =>
    have nothing : s.pending = ∅ := Finset.card_eq_zero.mp count
    let judged : Host := { s with
      verdict := if !k.checksAllDone ∨ s.allGone then .ended else .stall
      steps := tick s.steps }
    have quiet : s.step k .quiet = some judged := by
      show s.quiet k = _
      unfold Host.quiet
      rw [if_pos ⟨running, nothing, by rw [idle]; rfl⟩, if_neg (not_not.mpr wakes)]
    refine ⟨[.quiet], judged, by simp [quiet], rfl, ?_⟩
    by_cases gone : s.allGone <;> simp [judged, correct.checksAllDone, gone]
  | succ n ih =>
    obtain ⟨e, pending⟩ : s.pending.Nonempty := Finset.card_pos.mp (by omega)
    obtain ⟨h, m, rfl, found, gone, owned, right⟩ := left e pending
    obtain ⟨fewer, machines, woken⟩ := served_gone (k := k) correct found gone owned
    have fewer' : (s.served k (.resume h) m).pending.card = n := by
      rw [fewer, Finset.card_erase_of_mem pending]
      omega
    obtain ⟨actions, s', ran, same, verdict⟩ := ih (s := s.served k (.resume h) m) running
      (served_inFlight idle) (woken.trans wakes) (fun e later => machines ▸
        left e (Finset.mem_erase.mp (fewer ▸ later)).2) fewer'
    refine ⟨[.call (.resume h) 0, .ret h] ++ actions, s', ?_, same.trans machines, ?_⟩
    · rw [Transition.run_append, show Transition.run (Host.step k) s [.call (.resume h) 0, .ret h] = _
        from run_served workers found pending running idle right]
      exact ran
    · unfold allGone at verdict ⊢
      rwa [machines] at verdict

end

end Host

end SansEffort.Protocol
