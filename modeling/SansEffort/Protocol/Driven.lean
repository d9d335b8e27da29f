import SansEffort.Protocol.Driving

/-!
# What `drive` comes to

The Python host from its beginning: every state it reaches is one of the specification's host, with
the same machines and the same replies to come, and its verdict is the specification's. The
specification has to count enough resumes for no reason, six for each turn of the loop. If no
program panics it raises nothing but `Stalled`; and if none spawns itself, it ends.
-/

namespace SansEffort.Protocol

open Boundary Python

variable {k : Instance} {asks : Nat → Nat → Boundary.Request} {R : Type}

/-! ### The numbers -/

namespace Host

variable {s s' : Host} {n : Nat}

/-- There are at most `n` machines, and no next id is above `n`. -/
theorem Small.of_numbered (numbered : s.world.Numbered n) (few : n < 2 ^ 64) : s.Small :=
  ⟨Nat.lt_of_le_of_lt (Nat.le_add_right _ _) (Nat.lt_of_le_of_lt numbered.machines few),
    fun m member => (numbered.ids m member).trans few.le⟩

theorem numbered_init (k : Instance) : (init k).world.Numbered 1 := by
  refine ⟨le_refl _, fun m member => ?_⟩
  obtain rfl := List.mem_singleton.mp member
  exact le_refl _

/-- Only a call raises the bound on a host's numbers. -/
theorem step_numbered (numbered : s.world.Numbered n) {a : Action} (taken : s.step k a = some s') :
    s'.world.Numbered n ∨ ∃ e worker m, s.machines[e.target]? = some m ∧
      s' = s.called k e worker m := by
  have kept : s.world.Numbered n := numbered
  cases step_cases taken with
  | refused | woken | judged | spurred | done => exact .inl ⟨kept.machines, kept.ids⟩
  | called e worker m found _ _ _ _ _ => exact .inr ⟨e, worker, m, found, rfl⟩
  | returned h out _ =>
    have length : (retire s.machines h out).length = s.machines.length := length_retire _ _ _
    refine .inl ⟨length.le.trans kept.machines, fun m' member => ?_⟩
    obtain ⟨g, there⟩ := List.mem_iff_getElem?.mp member
    obtain ⟨m, before, same⟩ := machine_of_retire there
    rw [same]
    exact kept.ids m (List.mem_of_getElem? before)
  | killed h m _ _ _ _ =>
    have gone : (s.world.update h (·.over .gone)).Numbered n :=
      kept.update rfl kept.machines (le_refl _) kept.ids
    obtain ⟨machines, ids⟩ := gone.of_nudged (World.dropSenders_spec _ m.holds).1
    exact .inl ⟨(Nat.le_add_right _ _).trans machines, ids⟩

theorem called_numbered {e : Event} {m : Machine} (found : s.machines[e.target]? = some m)
    (numbered : (s.world.attempt k e).Numbered n) (worker : Nat) :
    1 ≤ n ∧ (s.called k e worker m).world.Numbered n := by
  have one : 1 ≤ n := by
    have attempted : (s.world.attempt k e).machines.length = s.machines.length :=
      (World.only_attempt (k := k) s.world e).length
    have low := (List.getElem?_eq_some_iff.mp found).1
    have := numbered.machines
    omega
  obtain ⟨length, ids⟩ := numbered.owned one worker m
  exact ⟨one, length, ids⟩

theorem run_numbered {actions : List Action} (numbered : s.world.Numbered n)
    (ran : Transition.run (Host.step k) s actions = some s') :
    s'.world.Numbered (n + STEPS * actions.length) := by
  induction actions generalizing s n with
  | nil =>
    obtain rfl := Option.some.inj ran
    exact numbered
  | cons a rest ih =>
    obtain ⟨next, stepped, later⟩ := Option.bind_eq_some_iff.mp ran
    have after : next.world.Numbered (n + STEPS) := by
      rcases step_numbered numbered stepped with same | ⟨e, worker, m, found, rfl⟩
      · exact ⟨same.machines.trans (Nat.le_add_right _ _), fun m member =>
          (same.ids m member).trans (Nat.le_add_right _ _)⟩
      · exact (called_numbered found (numbered.attempt e) worker).2
    have last := ih after later
    rw [List.length_cons, Nat.mul_succ, Nat.add_comm _ STEPS, ← Nat.add_assoc]
    exact last

/-- A host with small numbers has room for a number of actions. -/
theorem roomy_of_few {actions : Nat} (numbered : s.world.Numbered n)
    (few : n + STEPS * actions < 2 ^ 64) : s.Roomy k actions := by
  intro taken s' ran short
  have most := Nat.mul_le_mul_left STEPS short
  exact .of_numbered (run_numbered numbered ran) (by omega)

/-- The host's numbers and the work left together stay within `bound`. -/
def Paid (k : Instance) (load : String → Nat) (bound : Nat) (s : Host) : Prop :=
  ∃ n, s.world.Numbered n ∧ n + s.work k load ≤ bound

variable {load : String → Nat} {bound : Nat}

theorem paid_init (loads : Loads k load) : (init k).Paid k load (1 + load k.root) := by
  refine ⟨1, numbered_init k, Nat.add_le_add_left (Nat.le_of_eq ?_) 1⟩
  show Machine.work k load (fresh k k.root false) + 0 = _
  exact Machine.work_fresh loads k.root_named false

theorem Paid.step (correct : k.Correct) (loads : Loads k load) (judging : s.Judging k)
    (paid : s.Paid k load bound) {a : Action} (taken : s.step k a = some s') :
    s'.Paid k load bound := by
  obtain ⟨n, numbered, enough⟩ := paid
  have sound := judging.awake.sound
  rcases step_numbered numbered taken with same | ⟨e, worker, m, found, rfl⟩
  · have less : s'.work k load ≤ s.work k load := by
      by_cases acts : a = .done
      · subst acts
        cases step_cases taken
        exact le_refl _
      · rcases step_lowers correct loads sound judging.settled acts taken with less | ⟨same, _⟩
        · exact less.le
        · exact same.le
    exact ⟨n, same, by omega⟩
  · obtain ⟨n', after, spent⟩ := numbered.attempt_work load sound.world e
    have begun : s.world.work k load = s.work k load := Nat.add_zero _
    have ended : (s.called k e worker m).work k load ≤ (s.world.attempt k e).work k load :=
      World.work_owned loads sound.world e worker m
    exact ⟨n', (called_numbered found after worker).2, by omega⟩

theorem Paid.run (correct : k.Correct) (short : k.Short) (loads : Loads k load)
    (judging : s.Judging k) (paid : s.Paid k load bound) {actions : List Action}
    (ran : Transition.run (Host.step k) s actions = some s') : s'.Paid k load bound := by
  induction actions generalizing s with
  | nil =>
    obtain rfl := Option.some.inj ran
    exact paid
  | cons a rest ih =>
    obtain ⟨next, stepped, later⟩ := Option.bind_eq_some_iff.mp ran
    exact ih (judging.step correct short stepped) (paid.step correct loads judging stepped) later

/-- A number that is paid for fits, however long the host runs. -/
theorem Paid.roomy (correct : k.Correct) (short : k.Short) (loads : Loads k load)
    (judging : s.Judging k) (paid : s.Paid k load bound) (fits : bound < 2 ^ 64) (actions : Nat) :
    s.Roomy k actions := by
  intro taken s' ran _
  obtain ⟨n, numbered, enough⟩ := paid.run correct short loads judging ran
  exact .of_numbered numbered (by omega)

end Host

variable {host : Python.Host Library R} {s : Host} {d : Nat}

/-! ### The budget of resumes for no reason -/

/-- The host with `left` as its budget of spurious resumes. -/
def Host.refilled (s : Host) (left : Int) : Host := { s with spuriousLeft := left }

theorem Host.Judging.refilled (judging : s.Judging k) (left : Int) : (s.refilled left).Judging k where
  awake := ⟨⟨judging.awake.sound.world, judging.awake.sound.told⟩, judging.awake.backed,
    judging.awake.alert, judging.awake.unbegun⟩
  owing := ⟨judging.owing.owed, judging.owing.closed, judging.owing.asked⟩
  settled := judging.settled
  placed := ⟨judging.placed.pending, judging.placed.wakes, judging.placed.woke, judging.placed.spawned⟩
  owned := judging.owned
  judged := ⟨judging.judged.pending, judging.judged.inFlight, judging.judged.wakes,
    judging.judged.ended, judging.judged.stalled⟩

theorem Follows.refilled {hand : Option Event} (follows : Follows k asks hand host s) (left : Int) :
    Follows k asks hand host (s.refilled left) :=
  { follows with judging := follows.judging.refilled left }

/-! ### The beginning -/

/-- The library before the first call. -/
def initialLibrary (k : Instance) : Library := (Host.init k).library ∅

theorem follows_init (seed : Option R) (w : Python.World) :
    Follows k asks (some (.resume 0)) ⟨initialLibrary k, seed, [], [], [], [], 0, w⟩ (Host.init k) where
  judging := Host.judging_init k
  live := Host.live_init k
  running := rfl
  idle := rfl
  wakes := rfl
  library := rfl
  finished g member := absurd member (Finset.notMem_empty g)
  known g m there := by
    obtain rfl := List.mem_singleton.mp (List.mem_of_getElem? there)
    exact ⟨rfl, by simp [initialLibrary, Host.library, fresh], by simp [fresh], .inl rfl, by simp [fresh]⟩
  apart := List.nodup_nil
  handles := by simp
  queue := by simp
  timers := by simp
  held e same := Option.some.inj same ▸ Finset.mem_singleton_self _
  resumes g pending := by
    obtain rfl := Event.resume.inj (Finset.mem_singleton.mp pending)
    exact .inl rfl
  replies g id := by simp [Host.init, Python.Host.awaited]
  once := by simp [Python.Host.awaited]
  made := by simp [Python.Host.awaited]
  born := by simp [Python.Host.born]
  begins g m there _ := by
    have low := (List.getElem?_eq_some_iff.mp there).1
    obtain rfl : g = 0 := Nat.lt_one_iff.mp low
    exact .inl rfl

section

variable (correct : k.Correct) (short : k.Short) (workers : 1 ≤ k.workers)
  (shorts : ∀ g id, Short (asks g id))
include correct short workers shorts

/-- The first resume, of the root. -/
theorem begin_goes (seed : Option R) (w : Python.World) (budget : Int) :
    Goes k asks 2 0 ⟨initialLibrary k, seed, [], [], [], [], 0, w⟩ ((Host.init k).refilled budget)
      (Python.Host.begin (spoken k asks) 1 w seed (initialLibrary k)) :=
  ((follows_init seed w).refilled budget).resume_goes correct short workers shorts rfl
    (by simp [fresh]) (Host.roomy_of_few (Host.numbered_init k) (by decide))

/-- The loop's turns, each of which may take six actions of the specification's host. -/
theorem Follows.drives (rng : Rng R) (follows : Follows k asks none host s) (turns : Nat)
    (left : 6 * turns ≤ s.spuriousLeft) (roomy : s.Roomy k (6 * turns)) :
    Turned k asks (6 * turns) turns host s (host.after (spoken k asks) rng turns) := by
  induction turns with
  | zero => exact .on host s ⟨follows, ⟨[], rfl, le_refl _⟩, fun _ _ => .inr ⟨rfl, le_refl _⟩,
      fun _ modest => modest⟩
  | succ turns ih =>
    have before := ih (by push_cast at left; omega) (fun actions s' ran few =>
      roomy actions s' ran (by omega))
    unfold Python.Host.after
    generalize host.after (spoken k asks) rng turns = reached at before ⊢
    cases before with
    | on after s' went =>
      obtain ⟨actions, ran, few⟩ := went.ran
      have left' : 6 ≤ s'.spuriousLeft := by
        have := Host.run_spurious ran
        push_cast at left
        omega
      exact went.turned (went.follows.turns correct short workers shorts rng left'
        (Host.Roomy.later roomy ran few))
    | stopped after actions s' ran given ended count =>
      exact .stopped after actions s' ran given ended count
    | panicked panics => exact .panicked panics
    | unfit g id w unfit modest =>
      exact .unfit g id w unfit fun m before => (modest m before).more (by omega)

/-- The first resume and the turns after it. -/
theorem begun_drives (rng : Rng R) (seed : Option R) (w : Python.World) {turns : Nat} {budget : Int}
    (few : turns ≤ 2 ^ 30) (enough : 6 * turns + 2 ≤ budget) :
    Turned k asks (2 + 6 * turns) (0 + turns) ⟨initialLibrary k, seed, [], [], [], [], 0, w⟩
      ((Host.init k).refilled budget) (do
        (← Python.Host.begin (spoken k asks) 1 w seed (initialLibrary k)).after (spoken k asks) rng
          turns) := by
  have roomy : ((Host.init k).refilled budget).Roomy k (2 + 6 * turns) := by
    refine Host.roomy_of_few (Host.numbered_init k) ?_
    have counted : STEPS * (2 + 6 * turns) = 8 * (2 + 6 * turns) := rfl
    omega
  have begins := begin_goes correct short workers shorts seed w budget
  generalize Python.Host.begin (spoken k asks) 1 w seed (initialLibrary k) = begun at begins ⊢
  cases begins with
  | on host s went =>
    obtain ⟨actions, ran, few⟩ := went.ran
    have left' : (6 * turns : Int) ≤ s.spuriousLeft := by
      have := Host.run_spurious ran
      have : ((Host.init k).refilled budget).spuriousLeft = budget := rfl
      omega
    exact went.turned (went.follows.drives correct short workers shorts rng turns left'
      (Host.Roomy.later roomy ran few))
  | panicked panics => exact .panicked panics
  | unfit g id w' unfit modest =>
    exact .unfit g id w' unfit fun m before => (modest m before).more (by omega)

end

/-- A new world is modest if the lines of its script are short enough to cross. -/
theorem modest_new {script : List String} (lines : ∀ line ∈ script, (utf8 line).length + 5 < 2 ^ 32) :
    (Python.World.new script).Modest 0 :=
  ⟨le_refl _, le_refl _, lines, by simp [Python.World.new]⟩

/-- Every answer that the host makes in at most `2 ^ 30` turns fits its record. -/
theorem Turned.fits {result : Except Raised (Python.Host Library R × Bool)} {turns : Nat}
    (modest : host.world.Modest 0) (few : turns ≤ 2 ^ 30)
    (turned : Turned k asks (2 + 6 * turns) d host s result) : result ≠ .error .unpack := by
  rintro rfl
  cases turned with
  | unfit g id w unfit later => exact unfit ((later 0 modest).fits (by omega) (asks g id))

theorem Host.Judging.not_panics (judging : s.Judging k) (calm : k.Calm) (correct : k.Correct)
    (short : k.Short) : ¬ s.Panics k := by
  rintro ⟨actions, s', e, ran, _, failed⟩
  have later := judging.run correct short ran
  exact later.awake.sound.world.not_failed calm e (fun m member => (later.settled m member).2) failed

theorem deadline_calm : deadline.Calm := by
  intro p _
  show .panic ∉ (if p = "parent" then [.spawn "quick", .race "answer"] else [] : List Instr)
  split <;> simp

/-- A choice of requests: every one is for a line. -/
def forLines (_ _ : Nat) : Boundary.Request := .readLine ⟨⟩

/-- A source of randomness that never stutters, and always chooses the first. -/
def steady : Rng Unit := ⟨fun r => (false, r), fun _ r => (0, r), fun _ _ nonempty => nonempty⟩

/-- Each state that the Python host reaches is one of the specification's host, whose budget of
spurious resumes is `budget`. Where the loop stops, the other has given its verdict, and it is
`ended` only with every machine gone. The Python host raises nothing but `Failed`, for a call that
panics there too. -/
theorem drive_follows (k : Instance) (asks : Nat → Nat → Boundary.Request) (rng : Rng R)
    (seed : Option R) (script : List String) (turns : Nat) (budget : Int) (correct : k.Correct)
    (short : k.Short) (workers : 1 ≤ k.workers) (shorts : ∀ g id, Short (asks g id))
    (lines : ∀ line ∈ script, (utf8 line).length + 5 < 2 ^ 32) (few : turns ≤ 2 ^ 30)
    (enough : 6 * turns + 2 ≤ budget) :
    let start := (Host.init k).refilled budget
    let reached := do
      (← Python.Host.begin (spoken k asks) 1 (.new script) seed (initialLibrary k)).after
        (spoken k asks) rng turns
    (∀ host, reached = .ok (host, true) → ∃ actions s,
      Transition.run (Host.step k) start actions = some s ∧ Follows k asks none host s) ∧
    (∀ host, reached = .ok (host, false) → ∃ actions s,
      Transition.run (Host.step k) start actions = some s ∧ s.verdict ≠ .running ∧
      (s.verdict = .ended ↔ s.allGone) ∧ host.live.length = s.unfinished) ∧
    ∀ raised, reached = .error raised → raised = .failed (-4) ∧ start.Panics k := by
  intro start reached
  have turned : Turned k asks _ _ _ start reached :=
    begun_drives correct short workers shorts rng seed (.new script) few enough
  have fits := turned.fits (modest_new lines) few
  generalize reached = result at turned fits
  refine ⟨fun host same => ?_, fun host same => ?_, fun raised same => ?_⟩
  · subst same
    cases turned with
    | on _ s went =>
      obtain ⟨actions, ran, _⟩ := went.ran
      exact ⟨actions, s, ran, went.follows⟩
  · subst same
    cases turned with
    | stopped _ actions s ran given ended count => exact ⟨actions, s, ran, given, ended, count⟩
  · subst same
    cases turned with
    | panicked panics => exact ⟨rfl, panics⟩
    | unfit => exact absurd rfl fits

theorem drive_follows_deadline : ∃ host going actions s,
    (do (← Python.Host.begin (spoken deadline forLines) 1 (.new ["a"]) (some ())
      (initialLibrary deadline)).after (spoken deadline forLines) steady 100) = .ok (host, going) ∧
    Transition.run (Host.step deadline) ((Host.init deadline).refilled 1000) actions = some s ∧
    (going = true ∧ Follows deadline forLines none host s ∨
      going = false ∧ s.verdict ≠ .running ∧ (s.verdict = .ended ↔ s.allGone)) := by
  obtain ⟨goes, stops, raises⟩ := drive_follows deadline forLines steady (some ()) ["a"] 100 1000
    ⟨rfl, rfl, rfl, rfl, rfl⟩ deadline_short (le_refl _) (fun _ _ => trivial) (by decide)
    (by decide) (by decide)
  cases reached : (do (← Python.Host.begin (spoken deadline forLines) 1 (.new ["a"]) (some ())
    (initialLibrary deadline)).after (spoken deadline forLines) steady 100) with
  | error raised =>
    have start := (Host.judging_init deadline).refilled 1000
    exact absurd (raises raised reached).2
      (start.not_panics deadline_calm ⟨rfl, rfl, rfl, rfl, rfl⟩ deadline_short)
  | ok pair =>
    obtain ⟨host, going⟩ := pair
    cases going with
    | true =>
      obtain ⟨actions, s, ran, follows⟩ := goes host reached
      exact ⟨host, true, actions, s, rfl, ran, .inl ⟨rfl, follows⟩⟩
    | false =>
      obtain ⟨actions, s, ran, given, ended, _⟩ := stops host reached
      exact ⟨host, false, actions, s, rfl, ran, .inr ⟨rfl, given, ended⟩⟩

/-- A host that has stopped, or raised, stays as it is. -/
theorem after_stopped {lib : Lib Library} {rng : Rng R} {t : Nat}
    (stopped : ∀ last, host.after lib rng t ≠ .ok (last, true)) (u : Nat) :
    host.after lib rng (t + u) = host.after lib rng t := by
  induction u with
  | zero => rfl
  | succ u ih =>
    have next : host.after lib rng (t + (u + 1)) = (do
      let (host, going) ← host.after lib rng (t + u)
      if going then host.turn lib rng else return (host, false)) := rfl
    rw [next, ih]
    cases reached : host.after lib rng t with
    | error raised => rfl
    | ok pair =>
      obtain ⟨last, going⟩ := pair
      cases going with
      | true => exact absurd reached (stopped last)
      | false => rfl

section

variable (correct : k.Correct) (short : k.Short) (workers : 1 ≤ k.workers)
  (shorts : ∀ g id, Short (asks g id)) {load : String → Nat} (loads : Loads k load) {bound : Nat}
  (fits : bound < 2 ^ 64)
include correct short workers shorts loads fits

/-- The loop stops: each turn leaves less work, or as much work and less in the queue. -/
theorem Follows.halts (rng : Rng R) {host : Python.Host Library R} {s : Host}
    (follows : Follows k asks none host s) (paid : s.Paid k load bound) :
    ∃ t, ∀ last, host.after (spoken k asks) rng t ≠ .ok (last, true) := by
  have again := follows.refilled 6
  have paid : (s.refilled 6).Paid k load bound := paid
  have turned := again.turns correct short workers shorts rng (le_refl _)
    (paid.roomy correct short loads again.judging fits 6)
  generalize same : host.turn (spoken k asks) rng = result at turned
  cases turned with
  | on after s' went =>
    obtain ⟨actions, ran, _⟩ := went.ran
    have spends : s'.work k load < s.work k load ∨
        s'.work k load = s.work k load ∧ after.weight + 1 ≤ host.weight := went.spends load loads
    obtain ⟨t, ends⟩ := Follows.halts rng went.follows
      (paid.run correct short loads again.judging ran)
    refine ⟨1 + t, fun last going => ends last ?_⟩
    rw [Python.Host.after_add ((Python.Host.after_one _ rng host).trans same)] at going
    exact going
  | stopped | panicked | unfit =>
    refine ⟨1, fun last going => ?_⟩
    rw [Python.Host.after_one, same] at going
    cases going
termination_by (s.work k load, host.weight)
decreasing_by
  rcases spends with less | ⟨same, lighter⟩
  · exact .left _ _ less
  · rw [same]
    exact .right _ lighter

end

/-- If no program spawns itself, `drive` ends, whatever is chosen and however often a machine is
resumed for no reason. The root's work bounds the ids, which have to fit the wire. -/
theorem drive_halts (k : Instance) (asks : Nat → Nat → Boundary.Request) (rng : Rng R)
    (seed : Option R) (script : List String) (load : String → Nat) (correct : k.Correct)
    (short : k.Short) (workers : 1 ≤ k.workers) (shorts : ∀ g id, Short (asks g id))
    (loads : Loads k load) (fits : 1 + load k.root < 2 ^ 64) :
    ∃ turns result, ∀ more,
      drive (spoken k asks) rng 1 script seed (initialLibrary k) (turns + more) = some result := by
  have begins := begin_goes correct short workers shorts seed (.new script) 0
  unfold drive
  generalize Python.Host.begin (spoken k asks) 1 (.new script) seed (initialLibrary k) = begun
    at begins ⊢
  cases begins with
  | panicked | unfit => exact ⟨0, _, fun _ => rfl⟩
  | on host s went =>
    obtain ⟨actions, ran, _⟩ := went.ran
    have paid : ((Host.init k).refilled 0).Paid k load _ := Host.paid_init loads
    have paid := paid.run correct short loads ((Host.judging_init k).refilled 0) ran
    obtain ⟨t, stopped⟩ := went.follows.halts correct short workers shorts loads fits rng paid
    have same : ∀ more, (Except.ok host >>= fun host => host.after (spoken k asks) rng (t + more)) =
        host.after (spoken k asks) rng t := after_stopped stopped
    cases reached : host.after (spoken k asks) rng t with
    | error raised =>
      refine ⟨t, .error raised, fun more => ?_⟩
      rw [same, reached]
    | ok pair =>
      obtain ⟨last, going⟩ := pair
      cases going with
      | true => exact absurd reached (stopped last)
      | false =>
        refine ⟨t, last.verdict, fun more => ?_⟩
        rw [same, reached]
        rfl

/-- A race against a worker, with resumes for no reason as well. -/
def spurred : Instance := { deadline with spurious := 1000 }

theorem drive_halts_spurred : ∃ turns result, ∀ more,
    drive (spoken spurred forLines) steady 1 ["a"] (some ()) (initialLibrary spurred)
      (turns + more) = some result := by
  let load : String → Nat := fun p => if p = "parent" then 8 else 2
  have loads : Loads spurred load := by
    intro p named
    have named : p ∈ ({"parent", "quick"} : Finset String) := named
    simp only [Finset.mem_insert, Finset.mem_singleton] at named
    rcases named with rfl | rfl <;> rfl
  exact drive_halts spurred forLines steady (some ()) ["a"] load
    ⟨rfl, rfl, rfl, rfl, rfl⟩ deadline_short (le_refl _) (fun _ _ => trivial) loads (by decide)

end SansEffort.Protocol
