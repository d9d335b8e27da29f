import SansEffort.Protocol.Replies
import SansEffort.Protocol.Waking

/-!
# Verdicts

The host judges when it has nothing to call and nothing in flight, and no machine has been woken
unheard. Then no machine could progress: each that has not begun would have its resume, each that is
woken would be named, and each request outstanding would have its reply.
-/

namespace SansEffort.Protocol

variable {k : Instance}

namespace World

variable {w : World} {h : Nat} {m : Machine}

/-- A machine that still runs has passed an instruction for each it was given. -/
theorem runs_on (w : World) (h n : Nat)
    (there : ((List.range n).foldl (fun w _ => w.exec k h) w).machines[h]? = some m)
    (running : m.status = .running) : n ≤ m.pc := by
  induction n generalizing m with
  | zero => exact Nat.zero_le _
  | succ n ih =>
    rw [List.range_succ, List.foldl_append] at there
    have there : (((List.range n).foldl (fun w _ => w.exec k h) w).exec k h).machines[h]? = some m :=
      there
    cases found : ((List.range n).foldl (fun w _ => w.exec k h) w).machines[h]? with
    | none =>
      have bare := (only_exec (k := k) ((List.range n).foldl (fun w _ => w.exec k h) w) h).length
      have low := (List.getElem?_eq_some_iff.mp there).1
      have high := List.getElem?_eq_none_iff.mp found
      omega
    | some before =>
      obtain ⟨stopped, same⟩ | ⟨ran, a, turn, after⟩ := exec_turn (k := k) found
      · rw [same, found] at there
        obtain rfl := Option.some.inj there
        exact absurd running stopped
      · rw [account_of there] at after
        have same : m.bare = a.machine := congrArg Account.machine (Option.some.inj after)
        have status : a.machine.status = .running := same ▸ running
        have pc : m.pc = a.machine.pc := same ▸ rfl
        cases turn with
        | passed _ =>
          rw [pc]
          exact Nat.succ_le_succ (ih found ran)
        | returned | idled | awaited | panicked => simp at status

/-- `STEPS` instructions bring any machine to a wait, or to its end. -/
theorem Sound.stops (sound : w.Sound k) (short : k.Short) {a : Account}
    (ran : (w.runToWait k h).account h = some a) : a.machine.status ≠ .running := by
  obtain ⟨m, there, rfl⟩ := Option.map_eq_some_iff.mp ran
  intro running
  have passed : STEPS ≤ m.pc := runs_on w h STEPS there running
  have after := runToWait_keeps (h := h) (World.Sound k) (fun _ sound => sound.exec _) sound
  have self := after.machines m (List.mem_of_getElem? there)
  have within := self.within
  have len := short m.prog self.named
  unfold STEPS at passed len
  omega

end World

namespace Host

variable {s s' : Host}

theorem settled_init (k : Instance) : (init k).settled := by
  intro m member
  obtain rfl := List.mem_singleton.mp member
  simp [fresh]

theorem step_settled (short : k.Short) (sound : s.Sound k) (settled : s.settled) {a : Action}
    (taken : s.step k a = some s') : s'.settled := by
  -- a machine that only a wake has touched
  have kept : ∀ {g : Nat} {before m' : Machine}, s.machines[g]? = some before →
      m'.bare = before.bare → m'.status ≠ .running ∧ m'.status ≠ .panicking := by
    intro g before m' there bare
    rw [status_of_bare bare]
    exact settled before (List.mem_of_getElem? there)
  cases step_cases taken with
  | refused | woken | judged | spurred | done => exact settled
  | called e worker m found _ _ _ free _ =>
    intro m' member
    obtain ⟨g, there⟩ := List.mem_iff_getElem?.mp member
    have there : (s.world.owned k e worker m).machines[g]? = some m' := there
    obtain rfl | ⟨_, before, there', bare⟩ | ⟨_, _, child, _, _, bare⟩ :=
      of_called (k := k) (s := s) there
    · obtain ⟨a, ran, _⟩ := World.attempt_account (k := k) (w := s.world) found (fun _ => True)
        (fun _ _ => trivial) (fun _ _ _ _ _ _ _ => trivial)
      have stopped := (sound.world.begin e).stops short ran
      obtain ⟨n, at_h, _, ⟨_, _, gone, _⟩ | ⟨_, calm, _, _, same⟩⟩ :=
        World.owned_self (k := k) worker m ran
      · obtain rfl := Option.some.inj (there.symm.trans at_h)
        rw [gone]
        decide
      · obtain rfl := Option.some.inj (there.symm.trans at_h)
        have status := congrArg Machine.status same
        have status : m'.status = a.machine.status := status
        rw [status]
        exact ⟨stopped, calm⟩
    · exact kept there' bare
    · rw [show m'.status = .notStarted from congrArg Machine.status bare]
      decide
  | returned h out found =>
    intro m' member
    obtain ⟨g, there⟩ := List.mem_iff_getElem?.mp member
    obtain before | ⟨_, gone, _⟩ := of_retire there
    · exact settled m' (List.mem_of_getElem? before)
    · rw [gone]
      decide
  | killed h m found _ _ _ =>
    intro m' member
    obtain ⟨g, there⟩ := List.mem_iff_getElem?.mp member
    obtain ⟨_, gone, _⟩ | ⟨_, before, there', bare⟩ := of_killed there
    · rw [gone]
      decide
    · exact kept there' bare

/-! ### What the host has names machines there are -/

structure Placed (s : Host) : Prop where
  pending : ∀ e ∈ s.pending, e.target < s.machines.length
  wakes : ∀ g ∈ s.wakes, g < s.machines.length
  woke : ∀ x out, s.inFlight.lookup x = some out → ∀ g ∈ out.woke, g < s.machines.length
  spawned : ∀ x out, s.inFlight.lookup x = some out → ∀ g ∈ spawnedIn out.effects,
    g < s.machines.length

theorem placed_init (k : Instance) : (init k).Placed := by
  refine ⟨fun e pending => ?_, by simp [init], by simp [init], by simp [init]⟩
  obtain rfl := Finset.mem_singleton.mp pending
  exact Nat.one_pos

end Host

/-- What a call emits names machines there are once it has ended. -/
theorem World.placed_owned {w : World} {e : Event} (listed : (w.attempt k e).Listed) (worker : Nat)
    (m : Machine) :
    w.machines.length ≤ (w.owned k e worker m).machines.length ∧
      (∀ g ∈ (w.owned k e worker m).woke, g < (w.owned k e worker m).machines.length) ∧
      (¬ (w.attempt k e).failed e.target → ∀ g ∈ spawnedIn (w.owned k e worker m).effects,
        g < (w.owned k e worker m).machines.length) := by
  have before := (only_attempt (k := k) w e).length
  unfold owned
  rw [(only_own _ e.target worker m).length, own_woke, own_effects]
  unfold conclude
  split
  · next failed =>
    refine ⟨?_, fun g named => ?_, fun ended => absurd failed ended⟩
    · rw [(only_failCall _ _).length, before]
    · rw [(only_failCall _ _).length]
      -- those that wait for what it held are woken, and those that wait for its children
      obtain named | low := (nudged_failCall _ _).named g named
      · rw [woke_update] at named
        exact listed.woke g named
      · rwa [length_update] at low
  · rw [length_register, woke_register]
    refine ⟨by omega, fun g named => ?_, fun _ g named => ?_⟩
    · have := listed.woke g named
      omega
    · obtain ⟨i, there, rfl⟩ := spawned_register.mp (mem_spawnedIn.mp named)
      have low := (listed.children i).mp there
      omega

namespace Host

variable {s s' : Host}

theorem length_killed (s : Host) (h : Nat) (m : Machine) :
    (s.killed h m).machines.length = s.machines.length :=
  (World.dropSenders_spec _ m.holds).1.length.trans (World.length_update _ _ _)

theorem step_placed (correct : k.Correct) (sound : s.Sound k) (placed : s.Placed) {a : Action}
    (taken : s.step k a = some s') : s'.Placed := by
  cases step_cases taken with
  | refused e worker m found unrouted _ => cases correct.routesPinned.symm.trans unrouted
  | called e worker m found _ _ _ free _ =>
    obtain ⟨grown, woke, spawned⟩ := World.placed_owned (k := k) (w := s.world) (e := e)
      (World.Listed.attempt ⟨by simp [world], by simp [world]⟩ e) worker m
    have grown : s.machines.length ≤ (s.called k e worker m).machines.length := grown
    refine ⟨fun e' pending => ?_, fun g wakes => ?_, fun x out flying g named => ?_,
      fun x out flying g named => ?_⟩
    · exact (placed.pending e' (Finset.mem_erase.mp pending).2).trans_le grown
    -- what the call woke is due now, or once it has returned
    · rw [called_wakes] at wakes
      split at wakes
      · rcases Finset.mem_union.mp wakes with before | now
        · exact (placed.wakes g before).trans_le grown
        · exact woke g now
      · exact (placed.wakes g wakes).trans_le grown
    · obtain ⟨_, rfl⟩ | ⟨_, before⟩ := of_insert flying
      · rw [output_woke] at named
        split at named
        · simp at named
        · exact woke g named
      · exact (placed.woke x out before g named).trans_le grown
    · obtain ⟨_, rfl⟩ | ⟨_, before⟩ := of_insert flying
      · rw [output_effects] at named
        split at named
        · simp [spawnedIn] at named
        · next ended => exact spawned ended g named
      · exact (placed.spawned x out before g named).trans_le grown
  | returned h out found =>
    have same : (s.returned k h out).machines.length = s.machines.length := length_retire _ _ _
    obtain ⟨m, there, _⟩ := sound.told h out found
    have low := (List.getElem?_eq_some_iff.mp there).1
    refine ⟨fun e pending => ?_, fun g wakes => ?_, fun x o flying g named => ?_,
      fun x o flying g named => ?_⟩ <;> rw [same]
    · have pending := (Finset.mem_sdiff.mp pending).1
      simp only [Finset.mem_union, correct.heedsWoke, correct.waitsForWoke, if_true] at pending
      -- due on return: who was woken, who was created, and who asked
      rcases pending with (((before | woken) | polled) | child) | asked
      · exact placed.pending e before
      · obtain ⟨g, named, rfl⟩ := Finset.mem_image.mp woken
        exact placed.woke h out found g named
      · simp at polled
      · obtain ⟨g, named, rfl⟩ := Finset.mem_image.mp child
        exact placed.spawned h out found g named
      · obtain ⟨id, _, rfl⟩ := Finset.mem_image.mp asked
        exact low
    · exact placed.wakes g wakes
    · exact placed.woke x o (of_erase flying).2 g named
    · exact placed.spawned x o (of_erase flying).2 g named
  | woken _ _ _ _ =>
    refine ⟨fun e pending => ?_, by simp, placed.woke, placed.spawned⟩
    obtain ⟨g, wakes, rfl⟩ := Finset.mem_image.mp pending
    exact placed.wakes g wakes
  | judged => exact ⟨placed.pending, placed.wakes, placed.woke, placed.spawned⟩
  | spurred h m found _ _ _ _ =>
    refine ⟨fun e pending => ?_, placed.wakes, placed.woke, placed.spawned⟩
    rcases Finset.mem_union.mp pending with before | now
    · exact placed.pending e before
    · obtain rfl := Finset.mem_singleton.mp now
      exact (List.getElem?_eq_some_iff.mp found).1
  | killed h m found _ _ _ =>
    have same := length_killed s h m
    refine ⟨fun e pending => ?_, fun g wakes => ?_, fun x out flying g named => ?_,
      fun x out flying g named => ?_⟩ <;> rw [same]
    · exact placed.pending e (Finset.mem_filter.mp pending).1
    · rcases Finset.mem_union.mp wakes with before | now
      · exact placed.wakes g before
      · obtain old | low := (World.dropSenders_spec _ m.holds).1.named g now
        · exact absurd old (Finset.notMem_empty g)
        · exact (World.length_update s.world h (·.over .gone)) ▸ low
    · exact placed.woke x out flying g named
    · exact placed.spawned x out flying g named
  | done _ => exact placed

/-! ### Workers -/

/-- A pinned machine's owner is one of the workers. -/
def Owned (k : Instance) (s : Host) : Prop :=
  ∀ m ∈ s.machines, m.owner = -1 ∨ ∃ worker, worker < k.workers ∧ m.owner = (worker : Int)

theorem owned_init (k : Instance) : (init k).Owned k := by
  intro m member
  obtain rfl := List.mem_singleton.mp member
  exact .inl rfl

theorem step_owned (owned : s.Owned k) {a : Action} (taken : s.step k a = some s') :
    s'.Owned k := by
  cases step_cases taken with
  | refused | woken | judged | spurred | done => exact owned
  | called e worker m found _ idle _ free _ =>
    have low : worker < k.workers := by
      unfold idleWorkers at idle
      exact Finset.mem_range.mp (Finset.mem_sdiff.mp idle).1
    intro m' member
    obtain ⟨g, there⟩ := List.mem_iff_getElem?.mp member
    have there : (s.world.owned k e worker m).machines[g]? = some m' := there
    obtain rfl | ⟨_, before, there', bare⟩ | ⟨_, _, child, _, _, bare⟩ :=
      of_called (k := k) (s := s) there
    -- the machine called is the worker's now, or was before
    · obtain ⟨a, ran, same⟩ := World.attempt_account (k := k) (w := s.world) found
        (fun a => a.machine.owner = m.owner)
        (fun a entry => by cases entry <;> rfl)
        (fun n closed asked a _ same turn => by cases turn <;> exact same)
      obtain ⟨n, at_h, owner, _⟩ := World.owned_self (k := k) worker m ran
      obtain rfl := Option.some.inj (there.symm.trans at_h)
      rcases owner with kept | taken
      · rw [kept, same]
        exact owned m (List.mem_of_getElem? found)
      · exact .inr ⟨worker, low, taken⟩
    -- another machine is left to whoever had it
    · have owner := congrArg Machine.owner bare
      have owner : m'.owner = before.owner := owner
      rw [owner]
      exact owned before (List.mem_of_getElem? there')
    -- and a child is nobody's yet
    · have owner : m'.owner = -1 := congrArg Machine.owner bare
      exact .inl owner
  | returned h out found =>
    intro m' member
    obtain ⟨g, there⟩ := List.mem_iff_getElem?.mp member
    obtain ⟨m, before, same⟩ := machine_of_retire there
    rw [show m'.owner = m.owner by rw [same]]
    exact owned m (List.mem_of_getElem? before)
  | killed h m found _ _ _ =>
    intro m' member
    obtain ⟨g, there⟩ := List.mem_iff_getElem?.mp member
    obtain ⟨n, before, same, _⟩ :=
      (World.dropSenders_spec (s.world.update h (·.over .gone)) m.holds).1.of_machine there
    rw [show m'.owner = n.owner by rw [same]]
    obtain old | ⟨m', found, rfl⟩ := World.update_machines (List.mem_of_getElem? before)
    · exact owned n old
    · exact owned m' (List.mem_of_getElem? found)

/-! ### What the host has judged -/

/-- Once the host has judged, it has nothing to call and nothing in flight, and nobody to wake. -/
structure Judged (s : Host) : Prop where
  pending : s.verdict ≠ .running → s.pending = ∅
  inFlight : s.verdict ≠ .running → s.inFlight.keys = ∅
  wakes : s.verdict ≠ .running → s.wakes = ∅
  ended : s.verdict = .ended → s.allGone
  stalled : s.verdict = .stall → ¬ s.allGone

theorem judged_of_running (running : s.verdict = .running) : s.Judged := by
  constructor <;> simp [running]

theorem step_judged (correct : k.Correct) (judged : s.Judged) {a : Action}
    (taken : s.step k a = some s') : s'.Judged := by
  cases step_cases taken with
  | refused e worker m found unrouted _ => cases correct.routesPinned.symm.trans unrouted
  | called e worker m _ _ _ running _ _ => exact judged_of_running (s := s.called k e worker m) running
  | returned h out found =>
    apply judged_of_running
    by_contra given
    cases (lookup_none_of_empty (judged.inFlight given) h).symm.trans found
  | woken running _ _ _ => exact judged_of_running running
  | spurred h m _ _ _ running _ => exact judged_of_running running
  | killed h m _ _ _ running => exact judged_of_running (s := s.killed h m) running
  | judged _ pending inFlight wakes =>
    refine ⟨fun _ => pending, fun _ => inFlight, fun _ => wakes, fun ended => ?_, fun stalled => ?_⟩
    · by_contra left
      have left : ¬ s.allGone := left
      simp [correct.checksAllDone, left] at ended
    · intro all
      have all : s.allGone := all
      simp [all] at stalled
  | done _ => exact judged

/-! ### Runs -/

/-- The invariants that a verdict rests on. -/
structure Judging (k : Instance) (s : Host) : Prop where
  awake : s.Awake False k
  owing : s.Owing
  settled : s.settled
  placed : s.Placed
  owned : s.Owned k
  judged : s.Judged

theorem judging_init (k : Instance) : (init k).Judging k :=
  ⟨awake_init False k, owing_init k, settled_init k, placed_init k, owned_init k,
    judged_of_running rfl⟩

theorem Judging.step (correct : k.Correct) (short : k.Short) (judging : s.Judging k) {a : Action}
    (taken : s.step k a = some s') : s'.Judging k := by
  have sound := judging.awake.sound
  exact ⟨judging.awake.step correct (fun no => no.elim) taken,
    step_owing correct sound judging.owing taken,
    step_settled short sound judging.settled taken,
    step_placed correct sound judging.placed taken,
    step_owned judging.owned taken,
    step_judged correct judging.judged taken⟩

/-- With nothing on its way to any machine, none could progress. -/
theorem Judging.still (judging : s.Judging k) (pending : s.pending = ∅)
    (inFlight : s.inFlight.keys = ∅) (wakes : s.wakes = ∅) : ∀ m ∈ s.machines, ¬ s.runnable m := by
  have unsent : ∀ e, e ∉ s.pending := by simp [pending]
  have landed : ∀ {x out}, s.inFlight.lookup x ≠ some out := by
    intro x out
    rw [lookup_none_of_empty inFlight x]
    simp
  have untold : ∀ g, ¬ s.Told g := by
    rintro g (resume | woken | ⟨x, out, flying, _⟩)
    · exact unsent _ resume
    · simp [wakes] at woken
    · exact landed flying
  intro m member runs
  obtain ⟨g, there⟩ := List.mem_iff_getElem?.mp member
  unfold runnable at runs
  split at runs
  · next status =>
    rcases judging.awake.unbegun g m there status with resume | ⟨x, out, flying, _⟩
    · exact unsent _ resume
    · exact landed flying
  · next status =>
    -- a receive that would not wait has been woken
    have woken : m.woken = true := runs.elim (judging.awake.alert.fed g m there (.inl status))
      (judging.awake.alert.shut g m there (.inl status))
    rcases judging.awake.alert.reported g m there (.inl status) woken with now | told
    · exact Finset.notMem_empty g now
    · exact untold g told
  · next status =>
    -- a race has asked, and its reply would be on its way
    obtain ⟨_, id, _, _, asks, _⟩ := (judging.awake.sound.world.machines m member).asking status
    have asked : id ∈ m.asks := by
      rw [asks]
      exact Finset.mem_singleton_self id
    rcases judging.owing.owed g m id there asked with reply | ⟨out, flying, _⟩
    · exact unsent _ reply
    · exact landed flying
  · exact runs

/-- An event ready is called on its machine's worker, if no call is in flight. -/
theorem Judging.callable (judging : s.Judging k) (workers : 1 ≤ k.workers)
    (running : s.verdict = .running) (inFlight : s.inFlight.keys = ∅) {e : Event}
    (pending : e ∈ s.pending) : ∃ worker, (s.call k e worker).isSome := by
  have low := judging.placed.pending e pending
  have found := List.getElem?_eq_getElem low
  have idle : ∀ worker, worker < k.workers → worker ∈ s.idleWorkers k := by
    intro worker low
    unfold idleWorkers
    rw [inFlight]
    simpa using low
  have calls : ∀ worker, worker < k.workers → ¬ wrong s.machines[e.target] worker →
      (s.call k e worker).isSome := by
    intro worker low right
    unfold call
    rw [found]
    dsimp only
    rw [if_pos ⟨pending, idle worker low, running, by simp [inFlight],
      by rw [inFlight]; exact workers, fun _ => right⟩, if_neg right]
    rfl
  rcases judging.owned s.machines[e.target] (List.getElem_mem low) with free | ⟨worker, low, owner⟩
  · exact ⟨0, calls 0 workers fun wrong => wrong.2.1 free⟩
  · exact ⟨worker, calls worker low fun wrong => wrong.2.2 owner⟩

/-- Until it judges, the host can call a machine, take a call's output, or ask `wakes`. -/
theorem Judging.goes_on (judging : s.Judging k) (workers : 1 ≤ k.workers)
    (running : s.verdict = .running) :
    (∃ e worker, (s.call k e worker).isSome) ∨ (∃ h, (s.ret k h).isSome) ∨ (s.quiet k).isSome := by
  by_cases inFlight : s.inFlight.keys = ∅
  · by_cases pending : s.pending = ∅
    · right; right
      unfold quiet
      rw [if_pos ⟨running, pending, inFlight⟩]
      split <;> rfl
    · obtain ⟨e, ready⟩ := Finset.nonempty_iff_ne_empty.mpr pending
      exact .inl ⟨e, judging.callable workers running inFlight ready⟩
  · obtain ⟨h, flying⟩ := Finset.nonempty_iff_ne_empty.mpr inFlight
    obtain ⟨out, found⟩ := Finmap.mem_iff.mp (Finmap.mem_keys.mp flying)
    refine .inr (.inl ⟨h, ?_⟩)
    unfold ret
    rw [found]
    rfl

theorem Judging.run (correct : k.Correct) (short : k.Short) (judging : s.Judging k)
    {actions : List Action} (ran : Transition.run (Host.step k) s actions = some s') : s'.Judging k :=
  Transition.run_invariant (Host.Judging k)
    (fun _ _ _ judging taken => judging.step correct short taken) judging ran

theorem judging_run (correct : k.Correct) (short : k.Short) {actions : List Action}
    (ran : Transition.run (Host.step k) (init k) actions = some s) : s.Judging k :=
  (judging_init k).run correct short ran

end Host

/-- In every state reached no machine is left running between calls; a stall leaves no machine that
could progress, and some that is not gone; at the end every machine is gone; and until then the host
has something to do. -/
theorem verdict_is_sound (k : Instance) (correct : k.Correct) (short : k.Short)
    (workers : 1 ≤ k.workers) (actions : List Host.Action) (s : Host)
    (ran : Transition.run (Host.step k) (Host.init k) actions = some s) :
    s.settled ∧ s.stallIsSound ∧ (s.verdict = .stall → ∃ m ∈ s.machines, m.status ≠ .gone) ∧
      s.endIsSound ∧
      (s.verdict = .running → (∃ e worker, (s.step k (.call e worker)).isSome) ∨
        (∃ h, (s.step k (.ret h)).isSome) ∨ (s.step k .quiet).isSome) := by
  have judging := Host.judging_run correct short ran
  refine ⟨judging.settled, fun stalled => ?_, fun stalled => ?_, judging.judged.ended,
    judging.goes_on workers⟩
  · have given : s.verdict ≠ .running := by simp [stalled]
    exact judging.still (judging.judged.pending given) (judging.judged.inFlight given)
      (judging.judged.wakes given)
  · have left := judging.judged.stalled stalled
    unfold Host.allGone at left
    simpa using left

/-- A race against a worker that ends: the reply ends the race, and then every machine is gone. -/
theorem verdict_is_sound_deadline :
    ∃ s, Transition.run (Host.step deadline) (Host.init deadline)
        [.call (.resume 0) 0, .ret 0, .call (.reply 0 1) 0, .ret 0, .call (.resume 1) 0, .ret 1,
          .quiet] = some s ∧ s.verdict = .ended ∧ s.allGone := by
  refine ⟨_, rfl, rfl, ?_⟩
  have sound := verdict_is_sound deadline ⟨rfl, rfl, rfl, rfl, rfl⟩ deadline_short (le_refl _)
    [.call (.resume 0) 0, .ret 0, .call (.reply 0 1) 0, .ret 0, .call (.resume 1) 0, .ret 1,
      .quiet] _ rfl
  exact sound.2.2.2.1 rfl

end SansEffort.Protocol
