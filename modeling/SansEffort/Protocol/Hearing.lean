import SansEffort.Protocol.Ending

/-!
# What a host hears of a call

Whatever a host does with the output of a call, it goes by the numbers in it: each child the call
registered is named once, and each request has an id of its own that was never given before. And a
machine that is gone hears nothing and says nothing.
-/

namespace SansEffort.Protocol

variable {k : Instance}

def Effect.child : Effect → Option Nat
  | .spawned child => some child
  | .asked _ => none

def Effect.request : Effect → Option Nat
  | .spawned _ => none
  | .asked id => some id

@[simp] theorem Effect.child_spawned (i : Nat) : (Effect.spawned i).child = some i := rfl
@[simp] theorem Effect.child_asked (id : Nat) : (Effect.asked id).child = none := rfl
@[simp] theorem Effect.request_spawned (i : Nat) : (Effect.spawned i).request = none := rfl
@[simp] theorem Effect.request_asked (id : Nat) : (Effect.asked id).request = some id := rfl

/-! ### The machine that is called -/

/-- What the call has closed and asked so far, for a machine that was `m` as the call began. -/
structure Heard (m : Machine) (a : Account) : Prop where
  place : a.machine.pinned = m.pinned ∧ a.machine.owner = m.owner
  older : m.nextId ≤ a.machine.nextId
  asked : ∀ id ∈ a.asked, m.nextId ≤ id ∧ id < a.machine.nextId
  closed : ∀ id ∈ a.closed, id < a.machine.nextId
  asks : ∀ id ∈ a.machine.asks, id < a.machine.nextId

theorem Heard.turn {m n : Machine} {closed asked : Finset Nat} {a : Account}
    (heard : Heard m ⟨n.bare, closed, asked⟩) (turn : Turn k n closed asked a) : Heard m a := by
  obtain ⟨place, older, old, shut, asks⟩ := heard
  have older : m.nextId ≤ n.nextId := older
  cases turn with
  | returned =>
    refine ⟨place, older, old, fun id there => ?_, by simp [Machine.over, Machine.bare]⟩
    exact (Finset.mem_union.mp there).elim (shut id) (asks id)
  | passed | idled | panicked => exact ⟨place, older, old, shut, asks⟩
  | awaited c racing =>
    have next : ∀ {id}, id < n.nextId → id < n.nextId + 1 := Nat.lt_succ_of_lt
    refine ⟨place, Nat.le_succ_of_le older, fun id there => ?_, fun id there => next (shut id there),
      fun id there => ?_⟩
    · rcases Finset.mem_union.mp there with before | now
      · exact ⟨(old id before).1, next (old id before).2⟩
      · obtain rfl := Finset.mem_singleton.mp now
        exact ⟨older, Nat.lt_succ_self _⟩
    · rcases Finset.mem_union.mp there with before | now
      · exact next (asks id before)
      · obtain rfl := Finset.mem_singleton.mp now
        exact Nat.lt_succ_self _

theorem heard_entry {m : Machine} (sound : m.Sound k) {e : Event} {a : Account}
    (entry : Entry m ∅ ∅ e a) : Heard m a := by
  have asks : ∀ id ∈ m.asks, id < m.nextId := fun id asked => (sound.asks_of_waits asked).2.2.2
  have fewer : ∀ other, ∀ id ∈ m.asks \ {other}, id < m.nextId :=
    fun _ id asked => asks id (Finset.mem_sdiff.mp asked).1
  cases entry with
  | started | looked | kept | discarded =>
    exact ⟨⟨rfl, rfl⟩, Nat.le_refl _, by simp, by simp, asks⟩
  | answered h id _ => exact ⟨⟨rfl, rfl⟩, Nat.le_refl _, by simp, by simp, fewer id⟩
  | won h status racing =>
    refine ⟨⟨rfl, rfl⟩, Nat.le_refl _, by simp, fun id there => ?_, fewer _⟩
    obtain ⟨_, only, _, low, _, either⟩ := sound.asking status
    obtain rfl : id = m.racing := by simpa using there
    exact either.resolve_left racing ▸ low

namespace World

variable {w : World} {h : Nat}

/-- The call's own machine, as the call leaves it: its owner is written down if it has none. -/
theorem heard_attempt {e : Event} {m : Machine} (found : w.machines[e.target]? = some m)
    (sound : m.Sound k) (closed : w.closed = ∅) (silent : w.effects = []) :
    ∃ a, (w.attempt k e).account e.target = some a ∧ Heard m a := by
  apply attempt_account found (Heard m)
  · intro a entry
    rw [closed, silent] at entry
    exact heard_entry sound entry
  · exact fun n closed asked a _ heard turn => heard.turn turn

/-- A pinned machine that is called has an owner. -/
theorem owned_owner {e : Event} {worker : Nat} {m m' : Machine} {a : Account}
    (ran : (w.attempt k e).account e.target = some a) (heard : Heard m a)
    (ended : ¬ (w.attempt k e).failed e.target)
    (there : (w.owned k e worker m).machines[e.target]? = some m') (pinned : m'.pinned = true) :
    m'.owner ≠ -1 := by
  obtain ⟨n, at_, same⟩ := Option.map_eq_some_iff.mp ran
  have place : n.pinned = m.pinned ∧ n.owner = m.owner := by
    have := heard.place
    rw [← same] at this
    exact this
  have found : ((w.attempt k e).register k).machines[e.target]? = some n := by
    rw [machines_register, List.getElem?_append_left (List.getElem?_eq_some_iff.mp at_).1]
    exact at_
  unfold World.owned conclude own at there
  rw [if_neg ended] at there
  split at there
  · rw [getElem?_update_self found] at there
    obtain rfl := Option.some.inj there
    simp
  · next other =>
    rw [found] at there
    obtain rfl := Option.some.inj there
    rw [place.1] at pinned
    rw [place.2]
    exact fun free => other ⟨pinned, free⟩

/-! ### What the call has told -/

/-- The effects of a call name its children in order, and requests of its machine, none of them
twice. -/
structure Tells (h : Nat) (w : World) : Prop where
  children : w.effects.filterMap Effect.child = List.range w.children.length
  requests : (w.effects.filterMap Effect.request).Nodup
  numbered : ∀ m, w.machines[h]? = some m →
    ∀ id ∈ w.effects.filterMap Effect.request, id < m.nextId

variable {w' : World}

/-- The effects stay in order when nothing more is told and the machine's next id is no lower. -/
theorem Tells.same (tells : w.Tells h) (effects : w'.effects = w.effects)
    (children : w'.children = w.children)
    (next : ∀ m', w'.machines[h]? = some m' → ∃ m, w.machines[h]? = some m ∧ m.nextId ≤ m'.nextId) :
    w'.Tells h := by
  refine ⟨effects ▸ children ▸ tells.children, effects ▸ tells.requests, fun m' there id told => ?_⟩
  obtain ⟨m, before, older⟩ := next m' there
  rw [effects] at told
  exact Nat.lt_of_lt_of_le (tells.numbered m before id told) older

theorem Nudged.tells (nudged : w.Nudged w') (tells : w.Tells h) : w'.Tells h := by
  refine tells.same nudged.effects nudged.children fun m' there => ?_
  obtain ⟨m, before, same, _⟩ := nudged.of_machine there
  exact ⟨m, before, by rw [same]⟩

theorem Tells.update (tells : w.Tells h) {f : Machine → Machine}
    (machines : w'.machines = (w.update h f).machines) (effects : w'.effects = w.effects)
    (children : w'.children = w.children) (next : ∀ m : Machine, m.nextId ≤ (f m).nextId) :
    w'.Tells h := by
  refine tells.same effects children fun m' there => ?_
  rw [machines, getElem?_update, if_pos rfl] at there
  obtain ⟨m, before, rfl⟩ := Option.map_eq_some_iff.mp there
  exact ⟨m, before, next m⟩

/-- A request with the machine's next id is told. -/
theorem Tells.ask (tells : w.Tells h) {m : Machine} (found : w.machines[h]? = some m)
    {f : Machine → Machine} (machines : w'.machines = (w.update h f).machines)
    (effects : w'.effects = w.effects ++ [.asked m.nextId]) (children : w'.children = w.children)
    (next : (f m).nextId = m.nextId + 1) : w'.Tells h := by
  have fresh : m.nextId ∉ w.effects.filterMap Effect.request :=
    fun told => Nat.lt_irrefl _ (tells.numbered m found _ told)
  have told : w'.effects.filterMap Effect.request =
      w.effects.filterMap Effect.request ++ [m.nextId] := by simp [effects]
  refine ⟨by simp [effects, children, tells.children], ?_, fun m' there id there' => ?_⟩
  · rw [told, List.nodup_append]
    refine ⟨tells.requests, List.nodup_singleton _, ?_⟩
    intro id before _ last same
    rw [List.mem_singleton.mp last] at same
    exact fresh (same ▸ before)
  · rw [machines, getElem?_update_self found] at there
    obtain rfl := Option.some.inj there
    rw [told, List.mem_append, List.mem_singleton] at there'
    rw [next]
    rcases there' with before | rfl
    · exact Nat.lt_succ_of_lt (tells.numbered m found id before)
    · exact Nat.lt_succ_self _

theorem Tells.take (tells : w.Tells h) (c : String) : (w.take c).Tells h := by
  refine tells.same (take_emitted w c).2 ?_ fun m' there => ⟨m', machines_take w c ▸ there, le_refl _⟩
  unfold World.take
  split <;> rfl

theorem Tells.exec (tells : w.Tells h) : (w.exec k h).Tells h := by
  cases found : w.machines[h]? with
  | none =>
    unfold World.exec
    rw [found]
    exact tells
  | some m =>
    obtain ⟨_, same⟩ | ⟨_, after, same, ran⟩ := exec_cases (k := k) found
    · rw [same]
      exact tells
    · rw [same]
      have on : ∀ m : Machine, m.nextId ≤ m.nextId := fun _ => le_refl _
      cases ran with
      | returns =>
        unfold finish
        rw [found]
        apply (dropSenders_spec _ _).1.tells
        exact tells.update (f := (·.over .complete)) rfl rfl rfl on
      | sends c _ =>
        apply (wakeWaiters_spec _ c).1.tells
        exact tells.update (f := fun m => { m with pc := m.pc + 1 }) rfl rfl rfl on
      | takes c _ =>
        exact (tells.take c).update (f := fun m => { m with pc := m.pc + 1 }) rfl rfl rfl on
      | spawns p pinned _ =>
        have moved : (w.update h fun m => { m with pc := m.pc + 1 }).Tells h :=
          tells.update rfl rfl rfl on
        have silent : (w.effects ++ [Effect.spawned w.children.length]).filterMap Effect.request =
            w.effects.filterMap Effect.request := by
          rw [List.filterMap_append]
          exact List.append_nil _
        refine ⟨?_, ?_, fun m there id told => ?_⟩
        · show (w.effects ++ [Effect.spawned w.children.length]).filterMap Effect.child =
            List.range (w.children ++ [(p, pinned)]).length
          simp [tells.children, List.range_succ]
        · exact silent ▸ tells.requests
        · exact moved.numbered m there id (silent ▸ told)
      | waits c _ _ =>
        exact tells.update (f := fun m => { m with status := .idle, waiting := c, woken := false })
          rfl rfl rfl on
      | asks _ =>
        exact tells.ask found (f := fun m => { m with
          status := .awaiting, asks := m.asks ∪ {m.nextId}, nextId := m.nextId + 1 }) rfl rfl rfl rfl
      | races c _ _ =>
        exact tells.ask found (f := fun m => { m with
          status := .awaiting, waiting := c, woken := false, racing := m.nextId,
          asks := m.asks ∪ {m.nextId}, nextId := m.nextId + 1 }) rfl rfl rfl rfl
      | panics _ =>
        exact tells.update (f := fun m => { m with status := .panicking }) rfl rfl rfl on

/-- An event says nothing itself. -/
theorem begin_silent (w : World) (e : Event) :
    (w.begin e).effects = w.effects ∧ (w.begin e).children = w.children := by
  have quiet : ∀ c, (w.take c).effects = w.effects ∧ (w.take c).children = w.children := by
    intro c
    unfold World.take
    split <;> exact ⟨rfl, rfl⟩
  cases found : w.machines[e.target]? with
  | none =>
    rw [begin_none found]
    exact ⟨rfl, rfl⟩
  | some m =>
    obtain ⟨w', same, begun⟩ := begin_cases found
    rw [same]
    cases begun with
    | starts | looks | waits | ignores | discards => exact ⟨rfl, rfl⟩
    | wins h _ _ _ => exact quiet m.waiting
    | answers h id taken _ either =>
      rcases either with rfl | rfl
      · exact ⟨rfl, rfl⟩
      · exact quiet m.waiting

theorem tells_attempt (e : Event) (silent : w.effects = []) (barren : w.children = []) :
    (w.attempt k e).Tells e.target := by
  obtain ⟨effects, children⟩ := begin_silent w e
  rw [silent] at effects
  rw [barren] at children
  exact runToWait_keeps (World.Tells e.target) (fun _ tells => tells.exec)
    ⟨by simp [effects, children], by simp [effects], by simp [effects]⟩

/-- What a call that has not failed has told, once its children have handles. -/
theorem owned_tells (w : World) (e : Event) (worker : Nat) (m : Machine)
    (ended : ¬ (w.attempt k e).failed e.target) :
    (w.owned k e worker m).effects.filterMap Effect.child =
        ((w.attempt k e).effects.filterMap Effect.child).map ((w.attempt k e).machines.length + ·) ∧
      (w.owned k e worker m).effects.filterMap Effect.request =
        (w.attempt k e).effects.filterMap Effect.request := by
  unfold World.owned conclude
  rw [if_neg ended, own_effects]
  show (List.map _ _).filterMap _ = _ ∧ (List.map _ _).filterMap _ = _
  rw [List.filterMap_map, List.filterMap_map, List.map_filterMap]
  constructor
  · congr 1
    funext effect
    cases effect <;> rfl
  · congr 1
    funext effect
    cases effect <;> rfl

/-! ### How far the numbers go -/

/-- There are at most `n` machines, and no next id is above `n`. -/
structure Numbered (n : Nat) (w : World) : Prop where
  machines : w.machines.length + w.children.length ≤ n
  ids : ∀ m ∈ w.machines, m.nextId ≤ n

section

variable {n : Nat}

theorem Numbered.of_nudged (numbered : w.Numbered n) (nudged : w.Nudged w') : w'.Numbered n := by
  refine ⟨by rw [nudged.length, nudged.children]; exact numbered.machines, fun m' member => ?_⟩
  obtain ⟨g, there⟩ := List.mem_iff_getElem?.mp member
  obtain ⟨m, before, same, _⟩ := nudged.of_machine there
  rw [same]
  exact numbered.ids m (List.mem_of_getElem? before)

theorem Numbered.update {n' : Nat} (numbered : w.Numbered n) {f : Machine → Machine}
    (machines : w'.machines = (w.update h f).machines)
    (children : w.machines.length + w'.children.length ≤ n') (more : n ≤ n')
    (next : ∀ m ∈ w.machines, (f m).nextId ≤ n') : w'.Numbered n' := by
  refine ⟨by rw [machines, length_update]; exact children, fun m member => ?_⟩
  rw [machines] at member
  obtain before | ⟨m', found, rfl⟩ := update_machines member
  · exact (numbered.ids m before).trans more
  · exact next m' (List.mem_of_getElem? found)

theorem Numbered.take (numbered : w.Numbered n) (c : String) : (w.take c).Numbered n := by
  unfold World.take
  split
  · exact ⟨numbered.machines, numbered.ids⟩
  · exact numbered

/-- One instruction raises the bound on the numbers by one at most. -/
theorem Numbered.exec (numbered : w.Numbered n) (h : Nat) :
    (w.exec k h).Numbered n ∨
      (w.exec k h).Numbered (n + 1) ∧ (w.exec k h).effects ≠ w.effects := by
  cases found : w.machines[h]? with
  | none =>
    unfold World.exec
    rw [found]
    exact .inl numbered
  | some m =>
    obtain ⟨_, same⟩ | ⟨_, after, same, ran⟩ := exec_cases (k := k) found
    · rw [same]
      exact .inl numbered
    · rw [same]
      have low := numbered.machines
      cases ran with
      | returns =>
        unfold finish
        rw [found]
        have ended : ({ w.update h (·.over .complete) with closed := w.closed ∪ m.asks } :
            World).Numbered n := numbered.update rfl low (le_refl _) numbered.ids
        exact .inl (ended.of_nudged (dropSenders_spec _ _).1)
      | sends c _ =>
        have sent : ({ w with queued := Function.update w.queued c (w.queued c + 1) }.update h
            fun m => { m with pc := m.pc + 1 }).Numbered n :=
          numbered.update rfl low (le_refl _) numbered.ids
        exact .inl (sent.of_nudged (wakeWaiters_spec _ c).1)
      | takes c _ =>
        have taken := numbered.take c
        exact .inl (taken.update (f := fun m => { m with pc := m.pc + 1 }) rfl taken.machines
          (le_refl _) taken.ids)
      | spawns p pinned _ =>
        refine .inr ⟨numbered.update (f := fun m => { m with pc := m.pc + 1 }) rfl ?_
          (Nat.le_succ n) fun m member => Nat.le_succ_of_le (numbered.ids m member), ?_⟩
        · show w.machines.length + (w.children ++ [(p, pinned)]).length ≤ n + 1
          rw [List.length_append, List.length_singleton]
          omega
        · show w.effects ++ [_] ≠ w.effects
          simp
      | waits | panics => exact .inl (numbered.update rfl low (le_refl _) numbered.ids)
      | asks | races =>
        refine .inr ⟨numbered.update rfl (Nat.le_succ_of_le low) (Nat.le_succ n) fun m member =>
          Nat.succ_le_succ (numbered.ids m member), ?_⟩
        show w.effects ++ [_] ≠ w.effects
        simp

theorem Numbered.begin (numbered : w.Numbered n) (e : Event) : (w.begin e).Numbered n := by
  cases found : w.machines[e.target]? with
  | none =>
    rw [begin_none found]
    exact numbered
  | some m =>
    obtain ⟨w', same, begun⟩ := begin_cases found
    rw [same]
    have won := numbered.take m.waiting
    cases begun with
    | starts | looks | waits =>
      exact numbered.update rfl numbered.machines (le_refl _) numbered.ids
    | ignores | discards => exact numbered
    | wins h _ _ _ => exact won.update rfl won.machines (le_refl _) won.ids
    | answers h id taken _ either =>
      rcases either with rfl | rfl
      · exact numbered.update rfl numbered.machines (le_refl _) numbered.ids
      · exact won.update rfl won.machines (le_refl _) won.ids

/-- A call adds a number for each instruction at most. -/
theorem Numbered.attempt (numbered : w.Numbered n) (e : Event) :
    (w.attempt k e).Numbered (n + STEPS) := by
  have counted : ∀ steps, ((List.range steps).foldl (fun w _ => w.exec k e.target)
      (w.begin e)).Numbered (n + steps) := by
    intro steps
    induction steps with
    | zero => exact numbered.begin e
    | succ steps ih =>
      rw [List.range_succ, List.foldl_append]
      rcases ih.exec (k := k) e.target with same | ⟨next, _⟩
      · exact ⟨Nat.le_succ_of_le same.machines, fun m member => Nat.le_succ_of_le (same.ids m member)⟩
      · exact next
  exact counted STEPS

/-- The numbers that a call adds are bounded by the work that it does. -/
theorem Numbered.attempt_work (load : String → Nat) (numbered : w.Numbered n) (sound : w.Sound k)
    (e : Event) : ∃ n', (w.attempt k e).Numbered n' ∧
      n' + (w.attempt k e).work k load ≤ n + w.work k load := by
  apply runToWait_keeps (k := k) (h := e.target)
    fun after => ∃ n', after.Numbered n' ∧ n' + after.work k load ≤ n + w.work k load
  · rintro after ⟨n', counted, bound⟩
    have spent : Spends k load e.target after (after.exec k e.target) := exec_spends after e.target
    rcases counted.exec (k := k) e.target with same | ⟨next, told⟩
    · refine ⟨n', same, ?_⟩
      rcases spent with less | ⟨equal, _⟩ <;> omega
    · refine ⟨n' + 1, next, ?_⟩
      rcases spent with less | ⟨_, _, silent, _⟩
      · omega
      · exact absurd silent told
  · refine ⟨n, numbered.begin e, ?_⟩
    have spent : Spends k load e.target w (w.begin e) := begin_spends sound e
    rcases spent with less | ⟨equal, _⟩ <;> omega

/-- Registering the children, or removing the machine, goes no further. -/
theorem Numbered.owned {e : Event} (numbered : (w.attempt k e).Numbered n) (positive : 1 ≤ n)
    (worker : Nat) (m : Machine) : (w.owned k e worker m).machines.length ≤ n ∧
      ∀ m' ∈ (w.owned k e worker m).machines, m'.nextId ≤ n := by
  have low := numbered.machines
  have concluded : ((w.attempt k e).conclude k e.target).machines.length ≤ n ∧
      ∀ m' ∈ ((w.attempt k e).conclude k e.target).machines, m'.nextId ≤ n := by
    unfold World.conclude
    split
    · have gone : ((w.attempt k e).update e.target (·.over .gone)).Numbered n :=
        numbered.update rfl low (le_refl _) numbered.ids
      have failed := gone.of_nudged (nudged_failCall (k := k) (w.attempt k e) e.target)
      exact ⟨(Nat.le_add_right _ _).trans failed.machines, failed.ids⟩
    · refine ⟨by rw [length_register]; exact low, fun m' member => ?_⟩
      rw [machines_register, List.mem_append, List.mem_map] at member
      rcases member with before | ⟨child, _, rfl⟩
      · exact numbered.ids m' before
      · exact positive
  unfold World.owned
  rw [(only_own _ e.target worker m).length]
  refine ⟨concluded.1, fun m' member => ?_⟩
  unfold World.own at member
  split at member
  · obtain before | ⟨n', found, rfl⟩ := update_machines member
    · exact concluded.2 m' before
    · exact concluded.2 n' (List.mem_of_getElem? found)
  · exact concluded.2 m' member

end

/-! ### Programs that do not panic -/

end World

/-- No program panics. -/
def Instance.Calm (k : Instance) : Prop := ∀ p ∈ k.names, .panic ∉ k.programs p

namespace World

variable {w : World} {h : Nat}

theorem exec_calm {m : Machine} (found : w.machines[h]? = some m) (settled : m.status ≠ .panicking)
    (calm : (k.programs m.prog)[m.pc]? ≠ some .panic) :
    ∀ m', (w.exec k h).machines[h]? = some m' → m'.status ≠ .panicking := by
  by_cases running : m.status = .running
  · have kept : ∀ {w' w'' : World} {f : Machine → Machine}, w'.machines = (w.update h f).machines →
        w'.Nudged w'' → (f m).status ≠ .panicking →
        ∀ m', w''.machines[h]? = some m' → m'.status ≠ .panicking := by
      intro w' w'' f machines nudged still m' there
      obtain ⟨n, before, same, _⟩ := nudged.of_machine there
      rw [machines, getElem?_update_self found] at before
      obtain rfl := Option.some.inj before
      rw [same]
      exact still
    have changed : ∀ {w' : World} {f : Machine → Machine}, w'.machines = (w.update h f).machines →
        (f m).status ≠ .panicking → ∀ m', w'.machines[h]? = some m' → m'.status ≠ .panicking :=
      fun machines still => kept machines (.refl _) still
    have taken : ∀ c, ((w.take c).update h fun m => { m with pc := m.pc + 1 }).machines =
        (w.update h fun m => { m with pc := m.pc + 1 }).machines := by
      intro c
      show (w.take c).machines.modify h _ = _
      rw [machines_take]
      rfl
    have ends : ∀ m', (w.finish h).machines[h]? = some m' → m'.status ≠ .panicking := by
      unfold finish
      rw [found]
      dsimp only
      have ended : ({ w.update h (·.over .complete) with closed := w.closed ∪ m.asks } :
          World).machines = (w.update h (·.over .complete)).machines := rfl
      exact kept ended (dropSenders_spec _ _).1 (by simp [Machine.over])
    unfold World.exec
    rw [found]
    dsimp only
    rw [if_neg (not_not.mpr running)]
    cases instr : (k.programs m.prog)[m.pc]? with
    | none => exact ends
    | some instr' =>
      cases instr' with
      | send c =>
        have sent : ({ w with queued := Function.update w.queued c (w.queued c + 1) }.update h
            fun m => { m with pc := m.pc + 1 }).machines =
              (w.update h fun m => { m with pc := m.pc + 1 }).machines := rfl
        exact kept sent (wakeWaiters_spec _ c).1 settled
      | recv c =>
        dsimp only
        split
        · exact changed (taken c) settled
        · split
          · exact ends
          · exact changed (f := fun m => { m with status := .idle, waiting := c, woken := false })
              rfl (by simp)
      | spawn p | spawnPinned p =>
        exact changed (f := fun m => { m with pc := m.pc + 1 }) rfl settled
      | ask =>
        exact changed (f := fun m => { m with
          status := .awaiting, asks := m.asks ∪ {m.nextId}, nextId := m.nextId + 1 }) rfl (by simp)
      | race c =>
        dsimp only
        split
        · exact changed (taken c) settled
        · exact changed (f := fun m => { m with
            status := .awaiting, waiting := c, woken := false, racing := m.nextId,
            asks := m.asks ∪ {m.nextId}, nextId := m.nextId + 1 }) rfl (by simp)
      | panic => exact absurd instr calm
  · intro m' there
    obtain ⟨_, same⟩ | ⟨runs, _⟩ := exec_cases (k := k) found
    · rw [same] at there
      obtain rfl := Option.some.inj (found.symm.trans there)
      exact settled
    · exact absurd runs running

/-- If no program panics, no call fails. -/
theorem Sound.not_failed (sound : w.Sound k) (calm : k.Calm) (e : Event)
    (settled : ∀ m ∈ w.machines, m.status ≠ .panicking) : ¬ (w.attempt k e).failed e.target := by
  have begun : ∀ m, (w.begin e).machines[e.target]? = some m → m.status ≠ .panicking := by
    intro m there
    cases found : w.machines[e.target]? with
    | none =>
      rw [begin_none found] at there
      cases found.symm.trans there
    | some before =>
      obtain ⟨a, entry, entered⟩ := begin_entry found
      rw [account_of there] at entered
      have same : m.bare = a.machine := congrArg Account.machine (Option.some.inj entered)
      rw [show m.status = a.machine.status from same ▸ rfl]
      cases entry with
      | started | looked | won | answered => simp [Machine.bare]
      | kept | discarded => exact settled before (List.mem_of_getElem? found)
  have kept := runToWait_keeps (k := k) (h := e.target)
    (fun w => w.Sound k ∧ ∀ m, w.machines[e.target]? = some m → m.status ≠ .panicking)
    (fun w ⟨sound, before⟩ => ⟨sound.exec _, fun m' there => ?_⟩) ⟨sound.begin e, begun⟩
  · intro failed
    obtain ⟨m, there, panicking⟩ := (failed_iff _ _).mp failed
    exact kept.2 m there panicking
  · cases found : w.machines[e.target]? with
    | none =>
      unfold World.exec at there
      rw [found] at there
      cases found.symm.trans there
    | some n =>
      have named := (sound.machines n (List.mem_of_getElem? found)).named
      exact exec_calm found (before n found)
        (fun instr => calm n.prog named (List.mem_of_getElem? instr)) m' there

/-! ### A machine that is gone -/

/-- Resuming a machine that is gone changes nothing. -/
theorem attempt_gone {m : Machine} (found : w.machines[h]? = some m) (gone : m.status = .gone) :
    w.attempt k (.resume h) = w := by
  have begun : w.begin (.resume h) = w := by
    obtain ⟨w', same, begun⟩ := begin_cases (e := .resume h) found
    rw [same]
    cases begun with
    | ignores => rfl
    | starts _ status | looks _ status | wins _ status | waits _ status =>
      cases gone.symm.trans status
  have stays : w.exec k h = w := by
    unfold World.exec
    rw [found]
    simp [gone]
  unfold World.attempt World.runToWait
  rw [begun]
  induction List.range STEPS with
  | nil => rfl
  | cons _ _ ih => rw [List.foldl_cons, show w.exec k (Event.resume h).target = w from stays, ih]

end World

end SansEffort.Protocol
