import SansEffort.Protocol.Spec

/-!
# What a call does

Each function of the library by what it does to the machine it runs, to the other machines and to
what the call has emitted. A machine is looked at but for `woken`, which nothing that runs it reads.
-/

namespace SansEffort.Protocol

variable {k : Instance}

/-- A machine but for whether it is woken. -/
def Machine.bare (m : Machine) : Machine := { m with woken := false }

@[simp] theorem Machine.bare_prog (m : Machine) : m.bare.prog = m.prog := rfl
@[simp] theorem Machine.bare_pc (m : Machine) : m.bare.pc = m.pc := rfl
@[simp] theorem Machine.bare_status (m : Machine) : m.bare.status = m.status := rfl
@[simp] theorem Machine.bare_waiting (m : Machine) : m.bare.waiting = m.waiting := rfl
@[simp] theorem Machine.bare_asks (m : Machine) : m.bare.asks = m.asks := rfl
@[simp] theorem Machine.bare_racing (m : Machine) : m.bare.racing = m.racing := rfl
@[simp] theorem Machine.bare_nextId (m : Machine) : m.bare.nextId = m.nextId := rfl
@[simp] theorem Machine.bare_pinned (m : Machine) : m.bare.pinned = m.pinned := rfl
@[simp] theorem Machine.bare_owner (m : Machine) : m.bare.owner = m.owner := rfl

@[simp] theorem Machine.over_status (m : Machine) (status : Status) :
    (m.over status).status = status := rfl
@[simp] theorem Machine.over_asks (m : Machine) (status : Status) : (m.over status).asks = ∅ := rfl
@[simp] theorem Machine.over_racing (m : Machine) (status : Status) : (m.over status).racing = 0 := rfl
@[simp] theorem Machine.over_prog (m : Machine) (status : Status) :
    (m.over status).prog = m.prog := rfl
@[simp] theorem Machine.over_pc (m : Machine) (status : Status) : (m.over status).pc = m.pc := rfl
@[simp] theorem Machine.over_nextId (m : Machine) (status : Status) :
    (m.over status).nextId = m.nextId := rfl
@[simp] theorem Machine.over_pinned (m : Machine) (status : Status) :
    (m.over status).pinned = m.pinned := rfl

namespace World

def bare (w : World) (g : Nat) : Option Machine := (w.machines[g]?).map Machine.bare

section

variable {w w' w'' : World} {h g : Nat} {c : String} {m : Machine}

theorem getElem?_update (w : World) (h g : Nat) (f : Machine → Machine) :
    (w.update h f).machines[g]? = if g = h then (w.machines[g]?).map f else w.machines[g]? := by
  show (w.machines.modify h f)[g]? = _
  rw [List.getElem?_modify]
  by_cases same : g = h
  · simp [same]
  · simp [same, Ne.symm same]

theorem getElem?_update_self (found : w.machines[h]? = some m) (f : Machine → Machine) :
    (w.update h f).machines[h]? = some (f m) := by
  rw [getElem?_update, if_pos rfl, found]
  rfl

theorem update_absent (absent : w.machines[h]? = none) (f : Machine → Machine) :
    w.update h f = w := by
  unfold update
  rw [List.modify_eq_self (List.getElem?_eq_none_iff.mp absent)]

theorem bare_of (found : w.machines[g]? = some m) : w.bare g = some m.bare := by
  rw [bare, found]
  rfl

theorem of_bare (found : w.bare g = some m) : ∃ b, w.machines[g]? = some { m with woken := b } := by
  obtain ⟨m', there, rfl⟩ := Option.map_eq_some_iff.mp found
  exact ⟨m'.woken, there⟩

@[simp] theorem length_update (w : World) (h : Nat) (f : Machine → Machine) :
    (w.update h f).machines.length = w.machines.length := List.length_modify ..

@[simp] theorem woke_update (w : World) (h : Nat) (f : Machine → Machine) :
    (w.update h f).woke = w.woke := rfl

/-! ### Waking -/

/-- Some machines are woken, and each is reported. Only `woken` and `senders` may differ besides. -/
structure Nudged (w w' : World) : Prop where
  machine : ∀ g m, w.machines[g]? = some m → ∃ b, w'.machines[g]? = some { m with woken := b } ∧
    (m.woken = true → b = true) ∧ (b = true → m.woken = true ∨ g ∈ w'.woke)
  length : w'.machines.length = w.machines.length
  woke : w.woke ⊆ w'.woke
  named : ∀ g ∈ w'.woke, g ∈ w.woke ∨ g < w.machines.length
  queued : w'.queued = w.queued
  effects : w'.effects = w.effects
  closed : w'.closed = w.closed
  children : w'.children = w.children

theorem Nudged.refl (w : World) : w.Nudged w :=
  ⟨fun _ m found => ⟨m.woken, found, id, .inl⟩, rfl, Finset.Subset.refl _, fun _ => .inl, rfl, rfl,
    rfl, rfl⟩

theorem Nudged.trans (first : w.Nudged w') (second : w'.Nudged w'') : w.Nudged w'' := by
  refine ⟨fun g m found => ?_, second.length.trans first.length, first.woke.trans second.woke,
    fun g woke => (second.named g woke).elim (first.named g) fun low => .inr (first.length ▸ low),
    second.queued.trans first.queued, second.effects.trans first.effects,
    second.closed.trans first.closed, second.children.trans first.children⟩
  obtain ⟨b, there, kept, told⟩ := first.machine g m found
  obtain ⟨b', there', kept', told'⟩ := second.machine g _ there
  refine ⟨b', there', fun woken => kept' (kept woken), fun woken => ?_⟩
  rcases told' woken with before | now
  · exact (told before).imp_right (second.woke ·)
  · exact .inr now

theorem Nudged.bare (nudged : w.Nudged w') (g : Nat) : w'.bare g = w.bare g := by
  cases found : w.machines[g]? with
  | some m =>
    obtain ⟨b, there, _⟩ := nudged.machine g m found
    rw [bare_of found, bare_of there]
    rfl
  | none =>
    have short := List.getElem?_eq_none_iff.mp found
    have absent : w'.machines[g]? = none := List.getElem?_eq_none_iff.mpr (nudged.length ▸ short)
    rw [World.bare, World.bare, found, absent]

/-- A machine of the later world is one of the earlier, woken or as it was. -/
theorem Nudged.of_machine (nudged : w.Nudged w') {m' : Machine} (found : w'.machines[g]? = some m') :
    ∃ m, w.machines[g]? = some m ∧ m' = { m with woken := m'.woken } ∧
      (m.woken = true → m'.woken = true) ∧ (m'.woken = true → m.woken = true ∨ g ∈ w'.woke) := by
  have bound : g < w.machines.length := by
    rw [← nudged.length]
    exact (List.getElem?_eq_some_iff.mp found).1
  have there := List.getElem?_eq_getElem bound
  obtain ⟨b, found', kept, told⟩ := nudged.machine g _ there
  rw [found] at found'
  obtain rfl := Option.some.inj found'
  exact ⟨_, there, rfl, kept, told⟩

theorem wakeWaiter_spec (c : String) (w : World) (h : Nat) :
    w.Nudged (w.wakeWaiter c h) ∧ (w.wakeWaiter c h).senders = w.senders ∧
      ∀ m : Machine, (w.wakeWaiter c h).machines[h]? = some m → m.waiting = c → m.woken = true := by
  unfold wakeWaiter
  cases found : w.machines[h]? with
  | none =>
    refine ⟨.refl w, rfl, fun m there => ?_⟩
    rw [found] at there
    cases there
  | some m =>
    dsimp only
    split
    · refine ⟨⟨fun g other there => ?_, by simp, Finset.subset_union_left, fun g woke => ?_, rfl, rfl,
        rfl, rfl⟩, rfl, fun m' there _ => ?_⟩
      · by_cases same : g = h
        · subst same
          rw [found] at there
          obtain rfl := Option.some.inj there
          exact ⟨true, getElem?_update_self found _, fun _ => rfl, fun _ => .inr (by simp)⟩
        · refine ⟨other.woken, ?_, id, .inl⟩
          rw [← there]
          exact (getElem?_update w h g _).trans (if_neg same)
      · refine (Finset.mem_union.mp woke).imp_right fun here => ?_
        rw [Finset.mem_singleton.mp here]
        exact (List.getElem?_eq_some_iff.mp found).1
      · rw [show _ = some _ from getElem?_update_self found _] at there
        obtain rfl := Option.some.inj there
        rfl
    · next not =>
      refine ⟨.refl w, rfl, fun m' there waits => ?_⟩
      rw [found] at there
      obtain rfl := Option.some.inj there
      by_contra asleep
      exact not ⟨waits, by simpa using asleep⟩

/-- Every machine waiting on the channel is woken. -/
theorem wakeWaiters_spec (w : World) (c : String) :
    w.Nudged (w.wakeWaiters c) ∧ (w.wakeWaiters c).senders = w.senders ∧
      ∀ (g : Nat) (m : Machine), (w.wakeWaiters c).machines[g]? = some m → m.waiting = c → m.woken = true := by
  have upTo : ∀ n, let w' := (List.range n).foldl (wakeWaiter c) w
      w.Nudged w' ∧ w'.senders = w.senders ∧
        ∀ (g : Nat) (m : Machine), g < n → w'.machines[g]? = some m → m.waiting = c → m.woken = true := by
    intro n
    induction n with
    | zero => exact ⟨.refl w, rfl, fun _ _ low => absurd low (Nat.not_lt_zero _)⟩
    | succ n ih =>
      obtain ⟨nudged, senders, woken⟩ := ih
      obtain ⟨nudged', senders', woken'⟩ :=
        wakeWaiter_spec c ((List.range n).foldl (wakeWaiter c) w) n
      rw [List.range_succ, List.foldl_append]
      refine ⟨nudged.trans nudged', senders'.trans senders, fun g m low there waits => ?_⟩
      by_cases last : g = n
      · exact woken' m (last ▸ there) waits
      · obtain ⟨m', before, same, kept, _⟩ := nudged'.of_machine there
        have waited : m'.waiting = c := by
          rw [same] at waits
          exact waits
        exact kept (woken g m' (by omega) before waited)
  obtain ⟨nudged, senders, woken⟩ := upTo w.machines.length
  refine ⟨nudged, senders, fun g m there waits => woken g m ?_ there waits⟩
  rw [← nudged.length]
  exact (List.getElem?_eq_some_iff.mp there).1

/-- One sender of the channel goes, and if none is left its waiters are woken. -/
theorem dropSender_spec (w : World) (c : String) :
    w.Nudged (w.dropSender c) ∧
      (∀ d, (w.dropSender c).senders d = w.senders d - if c = d then 1 else 0) ∧
      ∀ (g : Nat) (m : Machine), (w.dropSender c).machines[g]? = some m →
        (w.dropSender c).senders m.waiting = 0 → w.senders m.waiting = 0 ∨ m.woken = true := by
  have dropped : w.Nudged { w with senders := Function.update w.senders c (w.senders c - 1) } :=
    ⟨fun _ m found => ⟨m.woken, found, id, .inl⟩, rfl, Finset.Subset.refl _, fun _ => .inl, rfl,
      rfl, rfl, rfl⟩
  have left : ∀ d, Function.update w.senders c (w.senders c - 1) d =
      w.senders d - if c = d then 1 else 0 := by
    intro d
    by_cases same : c = d
    · subst same
      simp
    · rw [Function.update_of_ne (Ne.symm same), if_neg same]
      simp
  unfold dropSender
  dsimp only
  split
  -- the last one: whoever waits on the channel is woken
  · obtain ⟨nudged, senders, woken⟩ := wakeWaiters_spec
      { w with senders := Function.update w.senders c (w.senders c - 1) } c
    refine ⟨dropped.trans nudged, fun d => ?_, fun g m there shut => ?_⟩
    · rw [senders]
      exact left d
    · by_cases waits : m.waiting = c
      · exact .inr (woken g m there waits)
      · rw [senders] at shut
        exact .inl ((Function.update_of_ne waits _ _).symm.trans shut)
  · next still =>
    refine ⟨dropped, left, fun g m _ shut => .inl ?_⟩
    by_cases waits : m.waiting = c
    · rw [waits] at shut
      exact absurd ((Function.update_self c _ _).symm.trans shut) still
    · exact (Function.update_of_ne waits _ _).symm.trans shut

/-- The senders of the channels go, and the waiters of those that close are woken. -/
theorem dropSenders_spec (w : World) (chans : List String) :
    w.Nudged (w.dropSenders chans) ∧
      (∀ c, (w.dropSenders chans).senders c = w.senders c - chans.count c) ∧
      ∀ (g : Nat) (m : Machine), (w.dropSenders chans).machines[g]? = some m →
        (w.dropSenders chans).senders m.waiting = 0 →
        w.senders m.waiting = 0 ∨ m.woken = true := by
  unfold dropSenders
  induction chans generalizing w with
  | nil =>
    refine ⟨.refl w, by simp, fun g m _ shut => .inl shut⟩
  | cons c chans ih =>
    obtain ⟨nudged, senders, woken⟩ := w.dropSender_spec c
    obtain ⟨nudged', senders', woken'⟩ := ih (w.dropSender c)
    refine ⟨nudged.trans nudged', fun d => ?_, fun g m there shut => ?_⟩
    · rw [List.foldl_cons, senders', senders, List.count_cons]
      by_cases same : c = d
      · simp [same]
        omega
      · simp [same]
    -- a machine woken by an earlier drop stays so
    · rcases woken' g m there shut with before | now
      · obtain ⟨m', there', same, kept, _⟩ := nudged'.of_machine there
        have waiting : m.waiting = m'.waiting := by rw [same]
        rw [waiting] at before ⊢
        exact (woken g m' there' before).imp_right kept
      · exact .inr now

end

/-! ### One instruction -/

/-- What one instruction of a running machine does. -/
inductive Exec (k : Instance) (w : World) (h : Nat) (m : Machine) : World → Prop
  | returns : Exec k w h m (w.finish h)
  | sends (c : String) : (k.programs m.prog)[m.pc]? = some (.send c) →
      Exec k w h m (({ w with queued := Function.update w.queued c (w.queued c + 1) }.update h
        fun m => { m with pc := m.pc + 1 }).wakeWaiters c)
  | takes (c : String) : m.pc < (k.programs m.prog).length →
      Exec k w h m ((w.take c).update h fun m => { m with pc := m.pc + 1 })
  | spawns (p : String) (pinned : Bool) :
      (k.programs m.prog)[m.pc]? = some (.spawn p) ∨
        (k.programs m.prog)[m.pc]? = some (.spawnPinned p) →
      Exec k w h m (w.spawn k h p pinned)
  | waits (c : String) : (k.programs m.prog)[m.pc]? = some (.recv c) → ¬ w.ready c →
      Exec k w h m (w.update h fun m => { m with status := .idle, waiting := c, woken := false })
  | asks : (k.programs m.prog)[m.pc]? = some .ask →
      Exec k w h m { w.update h (fun m => { m with
          status := .awaiting, asks := m.asks ∪ {m.nextId}, nextId := m.nextId + 1 }) with
        effects := w.effects ++ [.asked m.nextId] }
  | races (c : String) : (k.programs m.prog)[m.pc]? = some (.race c) → ¬ w.ready c →
      Exec k w h m { w.update h (fun m => { m with
          status := .awaiting, waiting := c, woken := false, racing := m.nextId,
          asks := m.asks ∪ {m.nextId}, nextId := m.nextId + 1 }) with
        effects := w.effects ++ [.asked m.nextId] }
  | panics : m.pc < (k.programs m.prog).length →
      Exec k w h m (w.update h fun m => { m with status := .panicking })

theorem exec_cases {w : World} {h : Nat} {m : Machine} (found : w.machines[h]? = some m) :
    m.status ≠ .running ∧ w.exec k h = w ∨
      m.status = .running ∧ ∃ w', w.exec k h = w' ∧ Exec k w h m w' := by
  by_cases running : m.status = .running
  · refine .inr ⟨running, _, rfl, ?_⟩
    unfold exec
    rw [found]
    dsimp only
    rw [if_neg (not_not.mpr running)]
    cases instr : (k.programs m.prog)[m.pc]? with
    | none => exact .returns
    | some instr' =>
      have inside := (List.getElem?_eq_some_iff.mp instr).1
      cases instr' with
      | send c => exact .sends c instr
      | recv c =>
        dsimp only
        split
        · exact .takes c inside
        · next empty =>
          split
          · exact .returns
          · next opened => exact .waits c instr fun ready => ready.elim empty opened
      | spawn p => exact .spawns p false (.inl instr)
      | spawnPinned p => exact .spawns p true (.inr instr)
      | ask => exact .asks instr
      | race c =>
        dsimp only
        split
        · exact .takes c inside
        · next waiting => exact .races c instr waiting
      | panic => exact .panics inside
  · refine .inl ⟨running, ?_⟩
    unfold exec
    rw [found]
    exact if_pos running

/-- What holds of the world as the machine begins to run, and is kept by each instruction, holds
once it waits. -/
theorem runToWait_keeps {h : Nat} (holds : World → Prop)
    (kept : ∀ w, holds w → holds (w.exec k h)) {w : World} (begun : holds w) :
    holds (w.runToWait k h) := by
  unfold runToWait
  induction List.range STEPS generalizing w with
  | nil => exact begun
  | cons _ rest ih => exact ih (kept w begun)

/-! ### The event -/

/-- What an event does before its machine runs. -/
inductive Begin (w : World) (m : Machine) : Event → World → Prop
  | starts (h : Nat) : m.status = .notStarted →
      Begin w m (.resume h) (w.update h fun m => { m with status := .running })
  | looks (h : Nat) : m.status = .idle →
      Begin w m (.resume h)
        (w.update h fun m => { m with status := .running, waiting := "", woken := false })
  | wins (h : Nat) : m.status = .awaiting → m.racing ≠ 0 → 0 < w.queued m.waiting →
      Begin w m (.resume h)
        { (w.take m.waiting).go h m.racing with closed := w.closed ∪ {m.racing} }
  | waits (h : Nat) : m.status = .awaiting → m.racing ≠ 0 → w.queued m.waiting = 0 →
      Begin w m (.resume h) (w.update h fun m => { m with woken := false })
  | ignores (h : Nat) : m.status ≠ .notStarted → m.status ≠ .idle →
      (m.status = .awaiting → m.racing = 0) → Begin w m (.resume h) w
  | answers (h id : Nat) (taken : World) : id ∈ m.asks → taken = w ∨ taken = w.take m.waiting →
      Begin w m (.reply h id) (taken.go h id)
  | discards (h id : Nat) : id ∉ m.asks → Begin w m (.reply h id) w

theorem begin_none {w : World} {e : Event} (found : w.machines[e.target]? = none) : w.begin e = w := by
  cases e with
  | resume h =>
    show w.resume h = w
    unfold resume
    rw [show w.machines[h]? = none from found]
  | reply h id =>
    show w.deliver h id = w
    unfold deliver
    rw [show w.machines[h]? = none from found]

theorem begin_cases {w : World} {e : Event} {m : Machine} (found : w.machines[e.target]? = some m) :
    ∃ w', w.begin e = w' ∧ Begin w m e w' := by
  refine ⟨_, rfl, ?_⟩
  cases e with
  | resume h =>
    have there : w.machines[h]? = some m := found
    show Begin w m (.resume h) (w.resume h)
    unfold resume
    rw [there]
    dsimp only
    split
    · next status => exact .starts h status
    · next status => exact .looks h status
    · next status =>
      split
      · next won => exact .wins h status won.1 won.2
      · next lost =>
        split
        · next racing => exact .waits h status racing (by have := not_and.mp lost racing; omega)
        · next direct =>
          have direct : m.racing = 0 := not_not.mp direct
          exact .ignores h (by simp [status]) (by simp [status]) fun _ => direct
    · next unstarted busy waiting =>
      exact .ignores h unstarted busy fun status => absurd status waiting
  | reply h id =>
    have there : w.machines[h]? = some m := found
    show Begin w m (.reply h id) (w.deliver h id)
    unfold deliver
    rw [there]
    dsimp only
    split
    · next absent => exact .discards h id absent
    · next present =>
      have present : id ∈ m.asks := not_not.mp present
      split
      · exact .answers h id _ present (.inr rfl)
      · exact .answers h id _ present (.inl rfl)

end World

/-! ### Only one machine runs -/

namespace World

/-- No machine but `h` changes, but to be woken. -/
structure Only (h : Nat) (w w' : World) : Prop where
  bare : ∀ g, g ≠ h → w'.bare g = w.bare g
  length : w'.machines.length = w.machines.length

section

variable {h : Nat} {w w' w'' : World}

theorem Only.refl (h : Nat) (w : World) : Only h w w := ⟨fun _ _ => rfl, rfl⟩

theorem Only.trans (first : Only h w w') (second : Only h w' w'') : Only h w w'' :=
  ⟨fun g away => (second.bare g away).trans (first.bare g away), second.length.trans first.length⟩

theorem only_update (h : Nat) {f : Machine → Machine} (w : World)
    (machines : w'.machines = (w.update h f).machines) : Only h w w' := by
  refine ⟨fun g away => ?_, by rw [machines, length_update]⟩
  rw [bare, bare, machines, getElem?_update, if_neg away]

theorem Nudged.only (nudged : w'.Nudged w'') (before : Only h w w') : Only h w w'' :=
  before.trans ⟨fun g _ => nudged.bare g, nudged.length⟩

theorem machines_take (w : World) (c : String) : (w.take c).machines = w.machines := by
  unfold take
  split <;> rfl

theorem only_take (w : World) (c : String) (h : Nat) : Only h w (w.take c) :=
  ⟨fun g _ => by rw [bare, machines_take]; rfl, by rw [machines_take]⟩

theorem only_finish (w : World) (h : Nat) : Only h w (w.finish h) := by
  unfold finish
  split
  · exact .refl h w
  · exact (dropSenders_spec _ _).1.only (only_update h w rfl)

theorem only_exec (w : World) (h : Nat) : Only h w (w.exec k h) := by
  cases found : w.machines[h]? with
  | none =>
    unfold exec
    rw [found]
    exact .refl h w
  | some m =>
    obtain ⟨_, same⟩ | ⟨_, w', same, ran⟩ := exec_cases (k := k) found
    · rw [same]
      exact .refl h w
    · rw [same]
      cases ran with
      | returns => exact only_finish w h
      | sends c _ => exact (wakeWaiters_spec _ c).1.only (only_update h w rfl)
      | takes c _ => exact (only_take w c h).trans (only_update h _ rfl)
      | spawns | waits | asks | races | panics => exact only_update h w rfl

theorem only_begin (w : World) (e : Event) : Only e.target w (w.begin e) := by
  cases found : w.machines[e.target]? with
  | none =>
    rw [begin_none found]
    exact .refl _ w
  | some m =>
    obtain ⟨w', same, begun⟩ := begin_cases found
    rw [same]
    cases begun with
    | starts | looks | waits => exact only_update _ w rfl
    | wins h _ _ _ => exact (only_take w m.waiting h).trans (only_update h _ rfl)
    | ignores | discards => exact .refl _ w
    | answers h id taken _ either =>
      rcases either with rfl | rfl
      · exact only_update h _ rfl
      · exact (only_take w _ h).trans (only_update h _ rfl)

theorem only_attempt (w : World) (e : Event) : Only e.target w (w.attempt k e) :=
  (only_begin w e).trans (runToWait_keeps (Only e.target (w.begin e))
    (fun _ only => only.trans (only_exec _ _)) (.refl _ _))

/-- A failed call removes its machine; what the machine held, and its children, only wakes
others. -/
theorem nudged_failCall (w : World) (h : Nat) :
    (w.update h (·.over .gone)).Nudged (w.failCall k h) := by
  unfold failCall
  split
  · next absent =>
    rw [update_absent absent]
    exact .refl w
  · exact (dropSenders_spec _ _).1.trans (dropSenders_spec _ _).1

theorem only_failCall (w : World) (h : Nat) : Only h w (w.failCall k h) :=
  (nudged_failCall w h).only (only_update h w rfl)

theorem machines_register (w : World) : (w.register k).machines =
    w.machines ++ w.children.map fun c => fresh k c.1 c.2 := rfl

theorem woke_register (w : World) : (w.register k).woke = w.woke := rfl

theorem length_register (w : World) :
    (w.register k).machines.length = w.machines.length + w.children.length := by
  rw [machines_register, List.length_append, List.length_map]

theorem effects_register_nil {w : World} (silent : w.effects = []) :
    (w.register k).effects = [] := by
  unfold register
  dsimp only
  rw [silent, List.map_nil]

/-- The handle of a child is its place among those the call spawned, past the machines there
were. -/
theorem spawned_register {w : World} {g : Nat} : .spawned g ∈ (w.register k).effects ↔
    ∃ i, .spawned i ∈ w.effects ∧ g = w.machines.length + i := by
  unfold register
  rw [List.mem_map]
  constructor
  · rintro ⟨effect, there, same⟩
    cases effect with
    | spawned i => exact ⟨i, there, (Effect.spawned.inj same).symm⟩
    | asked _ => cases same
  · rintro ⟨i, there, rfl⟩
    exact ⟨.spawned i, there, rfl⟩

theorem own_woke (w : World) (h worker : Nat) (m : Machine) : (w.own h worker m).woke = w.woke := by
  unfold own
  split <;> rfl

theorem own_effects (w : World) (h worker : Nat) (m : Machine) :
    (w.own h worker m).effects = w.effects := by
  unfold own
  split <;> rfl

theorem only_own (w : World) (h worker : Nat) (m : Machine) : Only h w (w.own h worker m) := by
  unfold own
  split
  · exact only_update h w rfl
  · exact .refl h w

end

end World

theorem World.failed_iff (w : World) (h : Nat) :
    w.failed h ↔ ∃ m, w.machines[h]? = some m ∧ m.status = .panicking := by
  unfold World.failed
  rw [Option.any_eq_true]
  simp

/-! ### The host's actions -/

namespace Host

variable {s s' : Host}

/-- What each action needs, and what becomes of the host. -/
inductive Stepped (k : Instance) (s : Host) : Action → Host → Prop
  | refused (e : Event) (worker : Nat) (m : Machine) : s.machines[e.target]? = some m →
      k.routesPinned = false → wrong m worker →
      Stepped k s (.call e worker) { s with
        pending := s.pending.erase e, wrongThread := s.wrongThread + 1, steps := tick s.steps }
  | called (e : Event) (worker : Nat) (m : Machine) : s.machines[e.target]? = some m →
      e ∈ s.pending → worker ∈ s.idleWorkers k → s.verdict = .running →
      e.target ∉ s.inFlight.keys → ¬ wrong m worker →
      Stepped k s (.call e worker) (s.called k e worker m)
  | returned (h : Nat) (out : Output) : s.inFlight.lookup h = some out →
      Stepped k s (.ret h) (s.returned k h out)
  | woken : s.verdict = .running → s.pending = ∅ → s.inFlight.keys = ∅ → s.wakes ≠ ∅ →
      Stepped k s .quiet { s with
        pending := s.wakes.image .resume, wakes := ∅, steps := tick s.steps }
  | judged : s.verdict = .running → s.pending = ∅ → s.inFlight.keys = ∅ → s.wakes = ∅ →
      Stepped k s .quiet { s with
        verdict := if !k.checksAllDone ∨ s.allGone then .ended else .stall, steps := tick s.steps }
  | spurred (h : Nat) (m : Machine) : s.machines[h]? = some m → m.waitingIn →
      h ∉ s.inFlight.keys → s.verdict = .running → 0 < s.spuriousLeft →
      Stepped k s (.spurious h) { s with
        pending := s.pending ∪ {.resume h}, spuriousLeft := s.spuriousLeft - 1,
        steps := tick s.steps }
  | killed (h : Nat) (m : Machine) : s.machines[h]? = some m → m.waitingIn →
      h ∉ s.inFlight.keys → s.verdict = .running → Stepped k s (.kill h) (s.killed h m)
  | done : s.verdict ≠ .running → Stepped k s .done s

theorem step_cases {a : Action} (taken : s.step k a = some s') : Stepped k s a s' := by
  cases a with
  | call e worker =>
    change s.call k e worker = some s' at taken
    unfold call at taken
    cases found : s.machines[e.target]? with
    | none =>
      rw [found] at taken
      cases taken
    | some m =>
      rw [found] at taken
      dsimp only at taken
      split at taken
      · next guards =>
        obtain ⟨pending, idle, running, free, _, routed⟩ := guards
        split at taken
        · next lost =>
          obtain rfl := Option.some.inj taken
          refine .refused e worker m found ?_ lost
          by_contra routes
          exact routed (by simpa using routes) lost
        · next right =>
          obtain rfl := Option.some.inj taken
          exact .called e worker m found pending idle running free right
      · cases taken
  | ret h =>
    change s.ret k h = some s' at taken
    unfold ret at taken
    cases found : s.inFlight.lookup h with
    | none =>
      rw [found] at taken
      cases taken
    | some out =>
      rw [found] at taken
      obtain rfl := Option.some.inj taken
      exact .returned h out found
  | quiet =>
    change s.quiet k = some s' at taken
    unfold quiet at taken
    split at taken
    · next guards =>
      obtain ⟨running, pending, inFlight⟩ := guards
      split at taken
      · next named =>
        obtain rfl := Option.some.inj taken
        exact .woken running pending inFlight named
      · next unnamed =>
        obtain rfl := Option.some.inj taken
        exact .judged running pending inFlight (not_not.mp unnamed)
    · cases taken
  | spurious h =>
    change s.spurious h = some s' at taken
    unfold spurious at taken
    cases found : s.machines[h]? with
    | none =>
      rw [found] at taken
      cases taken
    | some m =>
      rw [found] at taken
      dsimp only at taken
      split at taken
      · next guards =>
        obtain ⟨waiting, free, running, left⟩ := guards
        obtain rfl := Option.some.inj taken
        exact .spurred h m found waiting free running left
      · cases taken
  | kill h =>
    change s.kill h = some s' at taken
    unfold kill at taken
    cases found : s.machines[h]? with
    | none =>
      rw [found] at taken
      cases taken
    | some m =>
      rw [found] at taken
      dsimp only at taken
      split at taken
      · next guards =>
        obtain ⟨waiting, free, running, _⟩ := guards
        obtain rfl := Option.some.inj taken
        exact .killed h m found waiting free running
      · cases taken
  | done =>
    change s.done = some s' at taken
    unfold Host.done at taken
    split at taken
    · next given =>
      obtain rfl := Option.some.inj taken
      exact .done given
    · cases taken

/-! ### The machines and the calls after an action -/

theorem of_insert {inFlight : Finmap fun _ : Nat => Output} {h x : Nat} {out o : Output}
    (found : (inFlight.insert h out).lookup x = some o) :
    x = h ∧ o = out ∨ x ≠ h ∧ inFlight.lookup x = some o := by
  by_cases same : x = h
  · subst same
    rw [Finmap.lookup_insert] at found
    exact .inl ⟨rfl, (Option.some.inj found).symm⟩
  · rw [Finmap.lookup_insert_of_ne _ same] at found
    exact .inr ⟨same, found⟩

theorem of_erase {inFlight : Finmap fun _ : Nat => Output} {h x : Nat} {o : Output}
    (found : (inFlight.erase h).lookup x = some o) : x ≠ h ∧ inFlight.lookup x = some o := by
  by_cases same : x = h
  · subst same
    rw [Finmap.lookup_erase] at found
    cases found
  · rw [Finmap.lookup_erase_ne same] at found
    exact ⟨same, found⟩

theorem not_mem_keys {inFlight : Finmap fun _ : Nat => Output} {h : Nat} :
    h ∉ inFlight.keys ↔ inFlight.lookup h = none := by
  rw [Finmap.mem_keys, Finmap.lookup_eq_none]

theorem lookup_none_of_empty {inFlight : Finmap fun _ : Nat => Output} (empty : inFlight.keys = ∅)
    (x : Nat) : inFlight.lookup x = none :=
  not_mem_keys.mp (by rw [empty]; exact Finset.notMem_empty x)

/-- Freeing a machine is only written down in it. -/
theorem machine_of_retire {machines : List Machine} {h g : Nat} {out : Output} {m' : Machine}
    (there : (retire machines h out)[g]? = some m') :
    ∃ m, machines[g]? = some m ∧ m' = { m with status := m'.status } := by
  unfold retire at there
  dsimp only at there
  split at there
  · rw [List.getElem?_modify] at there
    obtain ⟨before, found, rfl⟩ := Option.map_eq_some_iff.mp there
    refine ⟨before, found, ?_⟩
    split <;> rfl
  · exact ⟨m', there, rfl⟩

@[simp] theorem length_retire (machines : List Machine) (h : Nat) (out : Output) :
    (retire machines h out).length = machines.length := by
  unfold retire
  dsimp only
  split
  · exact List.length_modify ..
  · rfl

/-- A machine once a call has returned is as it was, or freed. -/
theorem of_retire {machines : List Machine} {h : Nat} {out : Output} {g : Nat} {m : Machine}
    (there : (retire machines h out)[g]? = some m) :
    machines[g]? = some m ∨ g = h ∧ m.status = .gone ∧
      (out.status = .complete ∨ out.status = .gone) := by
  unfold retire at there
  dsimp only at there
  split at there
  · next ended =>
    rw [List.getElem?_modify] at there
    obtain ⟨before, found, rfl⟩ := Option.map_eq_some_iff.mp there
    by_cases here : h = g
    · rw [if_pos here]
      exact .inr ⟨here.symm, rfl, ended⟩
    · rw [if_neg here]
      exact .inl found
  · exact .inl there

theorem of_killed {h : Nat} {m : Machine} {g : Nat} {m' : Machine}
    (there : (s.killed h m).machines[g]? = some m') :
    g = h ∧ m'.status = .gone ∧ m'.asks = ∅ ∨
      g ≠ h ∧ ∃ before, s.machines[g]? = some before ∧ m'.bare = before.bare := by
  have nudged := (World.dropSenders_spec (s.world.update h (·.over .gone)) m.holds).1
  obtain ⟨n, before, same, _⟩ := nudged.of_machine there
  rw [World.getElem?_update] at before
  split at before
  · next here =>
    obtain ⟨old, _, rfl⟩ := Option.map_eq_some_iff.mp before
    rw [same]
    exact .inl ⟨here, rfl, rfl⟩
  · next away =>
    rw [same]
    exact .inr ⟨away, n, before, rfl⟩

section

variable (s : Host) (e : Event) (worker : Nat) (m : Machine)

theorem called_wakes (k : Instance) : (s.called k e worker m).wakes =
    if (s.world.attempt k e).failed e.target then s.wakes ∪ (s.world.owned k e worker m).woke
    else s.wakes := by
  unfold called
  dsimp only

theorem called_inFlight (k : Instance) : (s.called k e worker m).inFlight =
    s.inFlight.insert e.target (output (s.world.owned k e worker m) e.target worker
      ((s.world.attempt k e).failed e.target) m) := rfl

theorem output_woke (w : World) (h worker : Nat) (failed : Prop) [Decidable failed] (m : Machine) :
    (output w h worker failed m).woke = if failed then ∅ else w.woke := rfl

theorem output_effects (w : World) (h worker : Nat) (failed : Prop) [Decidable failed]
    (m : Machine) : (output w h worker failed m).effects = if failed then [] else w.effects := rfl

theorem output_closed (w : World) (h worker : Nat) (failed : Prop) [Decidable failed]
    (m : Machine) : (output w h worker failed m).closed = if failed then ∅ else w.closed := rfl

/-- What is in flight stays so. -/
theorem called_flying {s : Host} {e : Event} (k : Instance) (worker : Nat) (m : Machine)
    (free : e.target ∉ s.inFlight.keys) {x : Nat} {out : Output}
    (flying : s.inFlight.lookup x = some out) :
    x ≠ e.target ∧ (s.called k e worker m).inFlight.lookup x = some out := by
  have away : x ≠ e.target := by
    rintro rfl
    cases (not_mem_keys.mp free).symm.trans flying
  exact ⟨away, (Finmap.lookup_insert_of_ne _ away).trans flying⟩

end

/-- The machine that was called is there afterwards, as the output tells. -/
theorem called_self {e : Event} {worker : Nat} {m : Machine}
    (found : s.machines[e.target]? = some m) :
    ∃ m', (s.world.owned k e worker m).machines[e.target]? = some m' ∧
      (output (s.world.owned k e worker m) e.target worker
        ((s.world.attempt k e).failed e.target) m).status = m'.status := by
  have low : e.target < s.world.machines.length := (List.getElem?_eq_some_iff.mp found).1
  have bound : e.target < (s.world.owned k e worker m).machines.length := by
    have attempted := (World.only_attempt (k := k) s.world e).length
    unfold World.owned
    rw [(World.only_own _ e.target worker m).length]
    unfold World.conclude
    split
    · rw [(World.only_failCall _ _).length]
      omega
    · show _ < (_ ++ _ : List Machine).length
      rw [List.length_append]
      omega
  have there := List.getElem?_eq_getElem bound
  refine ⟨_, there, ?_⟩
  unfold output
  rw [there]
  rfl

/-- The other machines are, but for wakes, as they were. -/
theorem called_other {e : Event} (worker : Nat) (m : Machine) {g : Nat} {before : Machine}
    (away : g ≠ e.target) (found : s.machines[g]? = some before) :
    ∃ m', (s.world.owned k e worker m).machines[g]? = some m' ∧ m'.bare = before.bare := by
  have bare : (s.world.owned k e worker m).bare g = some before.bare := by
    have attempted := (World.only_attempt (k := k) s.world e).bare g away
    have here : s.world.bare g = some before.bare := World.bare_of found
    unfold World.owned
    rw [(World.only_own _ e.target worker m).bare g away]
    unfold World.conclude
    split
    · rw [(World.only_failCall _ _).bare g away, attempted, here]
    · obtain ⟨b, there⟩ := World.of_bare (attempted.trans here)
      have low := (List.getElem?_eq_some_iff.mp there).1
      show ((_ ++ _ : List Machine)[g]?).map Machine.bare = _
      rw [List.getElem?_append_left low, there]
      rfl
  exact Option.map_eq_some_iff.mp bare

/-- A machine after a call is the one that was called, one of the others, or a child. -/
theorem of_called {e : Event} {worker : Nat} {m : Machine} {g : Nat} {m' : Machine}
    (there : (s.world.owned k e worker m).machines[g]? = some m') :
    g = e.target ∨ (g ≠ e.target ∧ ∃ before, s.machines[g]? = some before ∧ m'.bare = before.bare) ∨
      (¬ (s.world.attempt k e).failed e.target ∧ ∃ i child,
        g = s.machines.length + i ∧ (s.world.attempt k e).children[i]? = some child ∧
        m'.bare = fresh k child.1 child.2) := by
  by_cases here : g = e.target
  · exact .inl here
  right
  by_cases low : g < s.machines.length
  · have found := List.getElem?_eq_getElem low
    obtain ⟨after, there', same⟩ := called_other (k := k) worker m here found
    obtain rfl := Option.some.inj (there.symm.trans there')
    exact .inl ⟨here, _, found, same⟩
  · have attempted : (s.world.attempt k e).machines.length = s.machines.length :=
      (World.only_attempt (k := k) s.world e).length
    have bare : ((s.world.attempt k e).conclude k e.target).bare g = some m'.bare := by
      rw [← (World.only_own _ e.target worker m).bare g here]
      exact World.bare_of there
    obtain ⟨b, found⟩ := World.of_bare bare
    unfold World.conclude at found
    split at found
    · have := (List.getElem?_eq_some_iff.mp found).1
      rw [(World.only_failCall _ _).length] at this
      omega
    · next ended =>
      have found : ((s.world.attempt k e).machines ++
        (s.world.attempt k e).children.map fun c => fresh k c.1 c.2)[g]? =
          some { m'.bare with woken := b } := found
      rw [List.getElem?_append_right (by omega), List.getElem?_map] at found
      obtain ⟨child, listed, same⟩ := Option.map_eq_some_iff.mp found
      refine .inr ⟨ended, g - s.machines.length, child, by omega, attempted ▸ listed, ?_⟩
      exact (congrArg Machine.bare same).symm

end Host

end SansEffort.Protocol
